import Picobroker.Protocol.Heapless
import Picobroker.Rust.BoundedList
import Picobroker.Rust.Runs

/-! `HeaplessVec` as a bounded list: every method answers as the list does, and the elements that an
owned iterator yields are those of the list. Elements are cloned faithfully. -/
namespace Picobroker
open Rust Rust.BoundedList

variable {α κ ε : Type} {N : ℕ}

namespace HeaplessVec

/-- The slots behind the visible contents. -/
def leftover (v : HeaplessVec α N) : List α := v.data.drop v.length

@[simp] lemma leftover_length (v : HeaplessVec α N) : v.leftover.length = N-v.length := by
  rw [leftover,List.length_drop,v.data_length]

lemma asSlice_append_leftover (v : HeaplessVec α N) : v.asSlice ++ v.leftover = v.data :=
  List.take_append_drop v.length v.data

lemma length_le_data (v : HeaplessVec α N) : 0+v.length ≤ v.data.length := by
  rw [v.data_length,Nat.zero_add]
  exact v.length_le

/-- `retain` with a closure that has a state. -/
def retainMut (f : κ → α → Bool × κ) (k : κ) (v : HeaplessVec α N) : κ × HeaplessVec α N :=
  have hl := v.length_le_data
  have hs := retainMutLoop_spec f k v.data 0 0 v.length hl le_rfl
  have hle : (retainMutLoop f k v.data 0 0 v.length hl).2.2 ≤ v.length := by
    rw [hs.length,Nat.zero_add]
    exact (select_sublist _ _ _).length_le.trans (List.length_take_le _ _)
  ((retainMutLoop f k v.data 0 0 v.length hl).1,
    { length := (retainMutLoop f k v.data 0 0 v.length hl).2.2
      data := (retainMutLoop f k v.data 0 0 v.length hl).2.1
      data_length := by rw [hs.data_length,v.data_length]
      length_le := hle.trans v.length_le
      length_lt := hle.trans_lt v.length_lt })

lemma pred_length_le (v : HeaplessVec α N) : v.length-1 ≤ N := (Nat.sub_le _ _).trans v.length_le

lemma pred_length_lt (v : HeaplessVec α N) : v.length-1 < 65536 :=
  (Nat.sub_le _ _).trans_lt v.length_lt

lemma last_lt {v : HeaplessVec α N} (h : 0 < v.length) : v.length-1 < v.data.length := by
  have hle := v.length_le
  rw [v.data_length]
  omega

lemma set_last_length (v : HeaplessVec α N) (item : α) :
    (v.data.set (v.length-1) item).length = N := by
  rw [List.length_set,v.data_length]

/-- The last element is taken out of its slot, which is left with the default. -/
def pop [Inhabited α] (v : HeaplessVec α N) : Option α × HeaplessVec α N :=
  if h : 0 < v.length then
    (some (v.data.get ⟨v.length-1,last_lt h⟩),
      { length := v.length-1
        data := v.data.set (v.length-1) default
        data_length := v.set_last_length default
        length_le := v.pred_length_le
        length_lt := v.pred_length_lt })
  else (none,v)

/-- `remove` with its bounds check. -/
def removeOrPanic (index : ℕ) : Proc (HeaplessVec α N) ε Unit := ⟨fun v =>
  if h : index < v.length then .ok () (v.remove index h) else .abort .panic⟩

section Contents

variable (v : HeaplessVec α N)

lemma retainMut_spec (f : κ → α → Bool × κ) (k : κ) :
    (v.retainMut f k).1 = (select f k v.asSlice).1 ∧
    (v.retainMut f k).2.asSlice = (select f k v.asSlice).2 ∧
    (v.retainMut f k).2.data.drop (v.retainMut f k).2.length =
      v.data.drop (v.retainMut f k).2.length := by
  have hs := retainMutLoop_spec f k v.data 0 0 v.length v.length_le_data le_rfl
  exact ⟨hs.closure,hs.contents,hs.behind⟩

/-- A predicate is a closure without a state. -/
lemma retain_eq_retainMut (p : α → Bool) :
    v.retain p = (v.retainMut (fun (_ : Unit) x => (p x,())) ()).2 := by
  have hloop := retainLoop_eq p v.data 0 0 v.length v.length_le_data
  simp only [retain,retainMut,hloop]

lemma pop_spec [Inhabited α] :
    v.pop.1 = v.asSlice.getLast? ∧ v.pop.2.asSlice = v.asSlice.dropLast := by
  by_cases h : 0 < v.length
  · have hle := v.length_le
    have hd := v.data_length
    rw [pop,dif_pos h]
    constructor
    · rw [List.getLast?_eq_getElem?,asSlice_length,asSlice,List.getElem?_take,
        if_pos (by omega),List.getElem?_eq_getElem (by omega)]
      rfl
    · rw [List.dropLast_eq_take,asSlice_length,asSlice,asSlice,List.take_take,
        Nat.min_eq_left (Nat.sub_le _ _),List.take_set]
      exact List.set_eq_of_length_le (by simp)
  · have hv : v.asSlice = [] := List.eq_nil_of_length_eq_zero (by rw [asSlice_length]; omega)
    rw [pop,dif_neg h]
    simp [hv]

lemma extendFromSlice_refused {items : List α} (h : ¬ v.length+items.length ≤ N) :
    extendFromSlice items v = .err .pushError v := dif_neg h

lemma removeOrPanic_of_lt {index : ℕ} (h : index < v.length) :
    (removeOrPanic index v : Outcome _ ε Unit) = .ok () (v.remove index h) := dif_pos h

lemma removeOrPanic_of_ge {index : ℕ} (h : ¬ index < v.length) :
    (removeOrPanic index v : Outcome _ ε Unit) = .abort .panic := dif_neg h

end Contents

section Calls

variable [Inhabited α]

/-- A call of a method by its name. -/
def call : Call α κ → Proc (HeaplessVec α N) PushError (Reply α κ)
  | .push item => push item >>= fun _ => pure .done
  | .pop => ⟨fun v => .ok (.item v.pop.1) v.pop.2⟩
  | .extendFromSlice items => extendFromSlice items >>= fun _ => pure .done
  | .retain f k => ⟨fun v => .ok (.closure (v.retainMut f k).1) (v.retainMut f k).2⟩
  | .remove index => removeOrPanic index >>= fun _ => pure .done
  | .dequeueFront => ⟨fun v => .ok (.item v.dequeueFront.1) v.dequeueFront.2⟩
  | .clear => ⟨fun v => .ok .done v.clear⟩

/-- Every method answers as the list does. -/
lemma call_mapState (hN : N ≤ 65535) (c : Call α κ) (v : HeaplessVec α N) :
    (call c v).mapState asSlice = BoundedList.call N .pushError c v.asSlice := by
  cases c with
  | push item =>
    simp only [call,Proc.bind_apply,BoundedList.call,asSlice_length]
    obtain ⟨hfull,hp⟩ | ⟨hlt,hlen,-⟩ | ⟨hlt,-,w,hp,hw⟩ := push_cases v item
    · rw [hp,if_neg (by omega)]
      rfl
    · omega
    · rw [hp,if_pos hlt,← hw]
      rfl
  | pop =>
    simp [call,BoundedList.call,v.pop_spec]
  | extendFromSlice items =>
    simp only [call,Proc.bind_apply,BoundedList.call,asSlice_length]
    by_cases h : v.length+items.length ≤ N
    · obtain ⟨w,hw⟩ := extendFromSlice_fits hN h
      rw [hw,if_pos h,← extendFromSlice_eq_ok hN hw]
      rfl
    · rw [v.extendFromSlice_refused h,if_neg h]
      rfl
  | retain f k =>
    simp [call,BoundedList.call,v.retainMut_spec f k]
  | remove index =>
    simp only [call,Proc.bind_apply,BoundedList.call,asSlice_length]
    by_cases h : index < v.length
    · rw [v.removeOrPanic_of_lt h,if_pos h,← asSlice_remove v index h]
      rfl
    · rw [v.removeOrPanic_of_ge h,if_neg h]
      rfl
  | dequeueFront =>
    simp [call,BoundedList.call]
  | clear =>
    simp [call,BoundedList.call]

end Calls

end HeaplessVec

/-- `HeaplessVecIntoIterator<T, N>`. -/
structure HeaplessVecIntoIterator (α : Type) (N : ℕ) where
  vec : HeaplessVec α N
  index : ℕ
  index_lt : index < 65536
  deriving Repr

lemma zero_lt_u16 : 0 < 65536 := by decide

def HeaplessVec.intoIter (v : HeaplessVec α N) : HeaplessVecIntoIterator α N where
  vec := v
  index := 0
  index_lt := zero_lt_u16

namespace HeaplessVecIntoIterator

/-- The elements that are still to come. -/
def remaining (it : HeaplessVecIntoIterator α N) : List α := it.vec.asSlice.drop it.index

/-- The element is taken out of its slot. Behind the last one the vector is cleared, so that the index
stays at or above its length. -/
def next [Inhabited α] : Proc (HeaplessVecIntoIterator α N) ε (Option α) := ⟨fun it =>
  if h : it.index < it.vec.length then
    have hd : it.index < it.vec.data.length := by
      rw [it.vec.data_length]
      exact h.trans_le it.vec.length_le
    let item := it.vec.data.get ⟨it.index,hd⟩
    let vec := it.vec.store it.index default
    if h' : it.index+1 < 65536 then .ok (some item) {
      vec := if it.index+1 = vec.length then vec.clear else vec
      index := it.index+1
      index_lt := h' }
    else .abort .panic
  else .ok none it⟩

@[simp] lemma remaining_intoIter (v : HeaplessVec α N) : v.intoIter.remaining = v.asSlice := by
  simp [remaining,HeaplessVec.intoIter]

/-- The iterator takes the elements off the front, and the index never overflows. -/
lemma next_mapState [Inhabited α] (it : HeaplessVecIntoIterator α N) :
    ((next : Proc _ ε _) it).mapState remaining = BoundedList.next it.remaining := by
  have hlt := it.vec.length_lt
  have hlen : (it.vec.store it.index default).length = it.vec.length := rfl
  by_cases h : it.index < it.vec.length
  · have hs : it.index < it.vec.asSlice.length := by rwa [HeaplessVec.asSlice_length]
    have hrem : it.remaining = it.vec.asSlice[it.index] :: it.vec.asSlice.drop (it.index+1) :=
      List.drop_eq_getElem_cons hs
    have hd : it.index < it.vec.data.length := by
      rw [it.vec.data_length]
      exact h.trans_le it.vec.length_le
    have hitem : it.vec.asSlice[it.index] = it.vec.data[it.index] := by
      simp [HeaplessVec.asSlice]
    simp only [next,dif_pos h,dif_pos (show it.index+1 < 65536 by omega),Outcome.mapState_ok]
    rw [hrem,hitem,hlen,next_cons,remaining,List.get_eq_getElem]
    congr 1
    by_cases hlast : it.index+1 = it.vec.length
    · rw [if_pos hlast,HeaplessVec.asSlice_clear,List.drop_nil]
      symm
      apply List.drop_eq_nil_of_le
      rw [HeaplessVec.asSlice_length,hlast]
    · rw [if_neg hlast,HeaplessVec.asSlice_store,List.drop_set,if_pos (Nat.lt_succ_self _)]
  · have hrem : it.remaining = [] := by
      apply List.drop_eq_nil_of_le
      rw [HeaplessVec.asSlice_length]
      exact Nat.not_lt.mp h
    simp only [next,dif_neg h,Outcome.mapState_ok]
    rw [hrem]
    rfl

end HeaplessVecIntoIterator

namespace HeaplessVec

variable [Inhabited α]

/-- The vector is a list of at most `N` elements: every list of calls on a new one gets the replies of
the list and leaves its contents, no call panics but a `remove` out of range, and the iterator over
what is left yields each element once and in order, then nothing for ever. -/
theorem refines_boundedList (hN : N ≤ 65535) (calls : List (Call α κ)) :
    ((script call calls : Proc _ Empty _) (new : HeaplessVec α N)).mapState asSlice =
      script (BoundedList.call N .pushError) calls [] ∧
    (((script call calls : Proc _ Empty _) (new : HeaplessVec α N)).Returns ↔
      ∀ pre c post, calls = pre ++ c::post → ∀ replies l,
        (script (BoundedList.call N PushError.pushError) pre : Proc _ Empty _) [] = .ok replies l →
          InRange l c) ∧
    ∀ replies v, (script call calls : Proc _ Empty _) (new : HeaplessVec α N) = .ok replies v →
      ∀ n, (((HeaplessVecIntoIterator.next : Proc _ Empty _).times n) v.intoIter).mapState
        HeaplessVecIntoIterator.remaining =
          .ok ((List.range n).map (v.asSlice[·]?)) (v.asSlice.drop n) := by
  have hscript : ((script call calls : Proc _ Empty _) (new : HeaplessVec α N)).mapState asSlice =
      script (BoundedList.call N .pushError) calls [] :=
    script_mapState (call_mapState hN) calls new
  refine ⟨hscript,?_,?_⟩
  · rw [← Outcome.returns_mapState (g := asSlice),hscript,script_returns_iff]
    simp only [call_returns_iff]
  · intro replies v _ n
    rw [Proc.times_mapState HeaplessVecIntoIterator.next_mapState,
      HeaplessVecIntoIterator.remaining_intoIter,times_next]

/-- A third element finds no room, and the first one is taken from the front. -/
def fullCalls : List (Call ℕ Unit) := [.push 1,.extendFromSlice [2],.push 3,.dequeueFront]

theorem refines_boundedList_full :
    ((script call fullCalls : Proc _ Empty _) (new : HeaplessVec ℕ 2)).mapState asSlice =
      script (BoundedList.call 2 .pushError) fullCalls [] ∧
    (((script call fullCalls : Proc _ Empty _) (new : HeaplessVec ℕ 2)).Returns ↔
      ∀ pre c post, fullCalls = pre ++ c::post → ∀ replies l,
        (script (BoundedList.call 2 PushError.pushError) pre : Proc _ Empty _) [] = .ok replies l →
          InRange l c) ∧
    ∀ replies v, (script call fullCalls : Proc _ Empty _) (new : HeaplessVec ℕ 2) = .ok replies v →
      ∀ n, (((HeaplessVecIntoIterator.next : Proc _ Empty _).times n) v.intoIter).mapState
        HeaplessVecIntoIterator.remaining =
          .ok ((List.range n).map (v.asSlice[·]?)) (v.asSlice.drop n) :=
  refines_boundedList (by decide) fullCalls

end HeaplessVec

/-! ### What stays behind the contents -/

namespace HeaplessVec

section Leftover

variable {v w : HeaplessVec α N}

lemma eq_iff_asSlice_leftover : v = w ↔ v.asSlice = w.asSlice ∧ v.leftover = w.leftover := by
  constructor
  · intro h
    subst h
    exact ⟨rfl,rfl⟩
  · rintro ⟨hs,hl⟩
    have hlen : v.length = w.length := by rw [← v.asSlice_length,hs,w.asSlice_length]
    have hdata : v.data = w.data := by
      rw [← v.asSlice_append_leftover,hs,hl,w.asSlice_append_leftover]
    cases v
    cases w
    simp_all

/-- Slots that leave the contents keep what they held. -/
lemma leftover_of_behind (hle : w.length ≤ v.length)
    (h : w.data.drop w.length = v.data.drop w.length) :
    w.leftover = v.asSlice.drop w.length ++ v.leftover := by
  rw [leftover,h,← v.asSlice_append_leftover]
  apply List.drop_append_of_le_length
  rwa [asSlice_length]

lemma leftover_of_push {item : α} {u : Unit} (h : push item v = .ok u w) :
    w.leftover = v.leftover.drop 1 := by
  simp only [push] at h
  split_ifs at h
  cases h
  rw [leftover,leftover,List.drop_set,if_pos (Nat.lt_succ_self _),List.drop_drop]

lemma leftover_of_extendFromSlice (hN : N ≤ 65535) {items : List α} {u : Unit}
    (h : extendFromSlice items v = .ok u w) : w.leftover = v.leftover.drop items.length := by
  simp only [extendFromSlice] at h
  split_ifs at h with hfit
  cases h
  have hm : items.length%65536 = items.length := Nat.mod_eq_of_lt (by omega)
  have hlen : v.length+items.length ≤ v.data.length := by rwa [v.data_length]
  simp only [leftover,hm]
  rw [writeFrom_eq _ _ _ hlen,← List.append_assoc,List.drop_drop]
  apply List.drop_left'
  simp
  omega

lemma leftover_retainMut (f : κ → α → Bool × κ) (k : κ) : (v.retainMut f k).2.leftover =
    v.asSlice.drop (select f k v.asSlice).2.length ++ v.leftover := by
  obtain ⟨-,hs,hb⟩ := v.retainMut_spec f k
  have hlen : (v.retainMut f k).2.length = (select f k v.asSlice).2.length := by
    rw [← hs,asSlice_length]
  rw [← hlen]
  apply leftover_of_behind _ hb
  rw [hlen,← v.asSlice_length]
  exact (select_sublist f k v.asSlice).length_le

lemma leftover_remove {index : ℕ} (h : index < v.length) :
    (v.remove index h).leftover = v.asSlice.drop (v.asSlice.length-1) ++ v.leftover := by
  have hle := v.length_le
  have hd := v.data_length
  rw [asSlice_length]
  apply leftover_of_behind (w := v.remove index h) (Nat.sub_le _ _)
  simp only [remove]
  rw [shiftDown_eq,← List.append_assoc,List.drop_left']
  · rw [show index+(v.length-1-index) = v.length-1 by omega]
  · simp
    omega

lemma leftover_clear : v.clear.leftover = v.asSlice ++ v.leftover := by
  apply leftover_of_behind (w := v.clear) (Nat.zero_le _)
  rfl

end Leftover

section Tidy

variable [Inhabited α] {v w : HeaplessVec α N} {c : Call α κ}

/-- The slots behind the contents hold the default, as those of a new vector do. -/
def Tidy (v : HeaplessVec α N) : Prop := ∀ x ∈ v.leftover, x = default

lemma tidy_new : (new : HeaplessVec α N).Tidy := by
  intro x hx
  have hmem : x ∈ List.replicate N default := List.mem_of_mem_drop hx
  exact List.eq_of_mem_replicate hmem

/-- The call leaves nothing but defaults in the slots that it takes from the contents. -/
def Settles (v : HeaplessVec α N) (c : Call α κ) : Prop := ∀ x ∈ vacated v.asSlice c, x = default

lemma leftover_eq_replicate (h : v.Tidy) : v.leftover = List.replicate (N-v.length) default :=
  List.eq_replicate_iff.mpr ⟨v.leftover_length,h⟩

/-- Among tidy vectors the contents decide. -/
lemma eq_iff_asSlice (hv : v.Tidy) (hw : w.Tidy) : v = w ↔ v.asSlice = w.asSlice := by
  rw [eq_iff_asSlice_leftover,and_iff_left_iff_imp]
  intro hs
  rw [leftover_eq_replicate hv,leftover_eq_replicate hw,← v.asSlice_length,hs,w.asSlice_length]

/-- What a call leaves behind the contents: what was there, but for the slots it fills, and in front of
it what the call takes from the contents. -/
lemma call_leftover (hN : N ≤ 65535) {r : Reply α κ} (h : call c v = .ok r w) :
    ∃ pre n, w.leftover = pre ++ v.leftover.drop n ∧
      ((∀ x ∈ pre, x = default) ↔ v.Settles c) := by
  cases c with
  | push item =>
    obtain ⟨u,w',hp,hr⟩ := Proc.bind_eq_ok.mp h
    cases hr
    exact ⟨[],1,leftover_of_push hp,by simp [Settles,vacated]⟩
  | pop =>
    cases h
    by_cases hv : 0 < v.length
    · refine ⟨[default],0,?_,by simp [Settles,vacated]⟩
      have hle := v.length_le
      have hd := v.data_length
      rw [pop,dif_pos hv]
      simp only [leftover]
      rw [List.drop_set,if_neg (lt_irrefl _),List.drop_eq_getElem_cons (by omega),
        Nat.sub_add_cancel hv]
      simp
    · refine ⟨[],0,?_,by simp [Settles,vacated]⟩
      rw [pop,dif_neg hv]
      rfl
  | extendFromSlice items =>
    obtain ⟨u,w',hp,hr⟩ := Proc.bind_eq_ok.mp h
    cases hr
    exact ⟨[],items.length,leftover_of_extendFromSlice hN hp,by simp [Settles,vacated]⟩
  | retain f k =>
    cases h
    exact ⟨_,0,leftover_retainMut f k,Iff.rfl⟩
  | remove index =>
    obtain ⟨u,w',hp,hr⟩ := Proc.bind_eq_ok.mp h
    cases hr
    by_cases hi : index < v.length
    · rw [v.removeOrPanic_of_lt hi] at hp
      cases hp
      exact ⟨_,0,leftover_remove hi,Iff.rfl⟩
    · rw [v.removeOrPanic_of_ge hi] at hp
      cases hp
  | dequeueFront =>
    cases h
    by_cases hv : 0 < v.length
    · refine ⟨_,0,?_,Iff.rfl⟩
      rw [dequeueFront,dif_pos hv]
      exact leftover_remove hv
    · refine ⟨[],0,?_,?_⟩
      · rw [dequeueFront,dif_neg hv]
        rfl
      · have hs : v.asSlice = [] := List.eq_nil_of_length_eq_zero (by rw [asSlice_length]; omega)
        simp [Settles,vacated,hs]
  | clear =>
    cases h
    exact ⟨_,0,leftover_clear,Iff.rfl⟩

lemma tidy_iff_settles (hN : N ≤ 65535) (hv : v.Tidy) {r : Reply α κ} (h : call c v = .ok r w) :
    w.Tidy ↔ v.Settles c := by
  obtain ⟨pre,n,hw,hiff⟩ := call_leftover hN h
  rw [← hiff,Tidy,hw]
  constructor
  · intro hall x hx
    exact hall x (List.mem_append_left _ hx)
  · intro hall x hx
    obtain hx | hx := List.mem_append.mp hx
    · exact hall x hx
    · exact hv x (List.mem_of_mem_drop hx)

/-- A refused call changes nothing. -/
lemma call_err {e : PushError} (h : call c v = .err e w) : w = v ∧ vacated v.asSlice c = [] := by
  cases c with
  | push item =>
    refine ⟨?_,rfl⟩
    obtain ⟨-,hp⟩ | ⟨-,-,hp⟩ | ⟨-,-,u,hp,-⟩ := push_cases v item
    · simp only [call,Proc.bind_apply,hp] at h
      cases h
      rfl
    · simp only [call,Proc.bind_apply,hp] at h
      cases h
    · simp only [call,Proc.bind_apply,hp] at h
      cases h
  | extendFromSlice items =>
    refine ⟨?_,rfl⟩
    simp only [call,Proc.bind_apply,extendFromSlice] at h
    split_ifs at h
    · cases h
    · cases h
    · cases h
      rfl
  | remove index =>
    simp only [call,Proc.bind_apply,removeOrPanic] at h
    split_ifs at h
    · cases h
    · cases h
  | pop => cases h
  | retain f k => cases h
  | dequeueFront => cases h
  | clear => cases h

/-- The vector after a call that does not panic. -/
def next (v : HeaplessVec α N) (c : Call α κ) : Option (HeaplessVec α N) := (call c v).state?

lemma next_tidy_iff (hN : N ≤ 65535) (hv : v.Tidy) (h : v.next c = some w) :
    w.Tidy ↔ v.Settles c := by
  unfold next at h
  cases hc : call c v with
  | ok r t =>
    rw [hc] at h
    cases h
    exact tidy_iff_settles hN hv hc
  | err e t =>
    rw [hc] at h
    cases h
    obtain ⟨rfl,hnil⟩ := call_err hc
    simp [hv,Settles,hnil]
  | abort why =>
    rw [hc] at h
    cases h

/-- Reached from a new vector by calls that settle. -/
def ReachedSettled (κ : Type) (w : HeaplessVec α N) : Prop :=
  ∃ h, Run (next (κ := κ)) new h w ∧ ∀ e ∈ h, e.1.Settles e.2

lemma ReachedSettled.tidy (hN : N ≤ 65535) (h : ReachedSettled κ w) : w.Tidy := by
  obtain ⟨calls,hr,hs⟩ := h
  have hvisited := (hr.visited_iff (fun _ _ _ => next_tidy_iff hN) tidy_new).mpr hs
  exact hvisited w (List.mem_append_right _ (List.mem_singleton_self w))

/-- Every list that fits is the contents of such a vector. -/
lemma exists_reachedSettled (κ : Type) (hN : N ≤ 65535) (v : HeaplessVec α N) :
    ∃ w : HeaplessVec α N, ReachedSettled κ w ∧ w.asSlice = v.asSlice := by
  have hfit : (new : HeaplessVec α N).length+v.asSlice.length ≤ N := by
    rw [asSlice_length,length_new,Nat.zero_add]
    exact v.length_le
  obtain ⟨w,hw⟩ := extendFromSlice_fits hN hfit
  refine ⟨w,⟨[(new,.extendFromSlice v.asSlice)],.cons ?_ (.nil w),?_⟩,?_⟩
  · simp [next,call,hw]
  · simp [Settles,vacated]
  · simpa using extendFromSlice_eq_ok hN hw

/-- Every state of a run equals the settled vectors of the same contents exactly when every call of the
run settles. -/
theorem visited_eq_iff (hN : N ≤ 65535) {h : List (HeaplessVec α N × Call α κ)}
    (hr : Run next new h v) : (∀ u ∈ visited h v, ∀ w : HeaplessVec α N, ReachedSettled κ w →
      (u = w ↔ u.asSlice = w.asSlice)) ↔ ∀ e ∈ h, e.1.Settles e.2 := by
  rw [← hr.visited_iff (fun _ _ _ => next_tidy_iff hN) tidy_new]
  apply forall₂_congr
  intro u _
  constructor
  · intro hall
    obtain ⟨w,hw,hs⟩ := exists_reachedSettled κ hN u
    rw [(hall w hw).mpr hs.symm]
    exact hw.tidy hN
  · intro hu w hw
    exact eq_iff_asSlice hu (hw.tidy hN)

end Tidy

end HeaplessVec

end Picobroker
