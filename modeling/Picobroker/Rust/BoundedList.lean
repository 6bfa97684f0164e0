import Picobroker.Rust.Script

/-! A list of at most `N` elements, as a thing one makes calls on. A call that would make it longer
is refused and changes nothing. -/
namespace Rust

namespace BoundedList

variable {α κ ε : Type} {N : ℕ} {full : ε}

/-- The calls. The closure of `retain` may have a state of its own, here of type `κ`. -/
inductive Call (α κ : Type)
  | push (item : α)
  | pop
  | extendFromSlice (items : List α)
  | retain (f : κ → α → Bool × κ) (k : κ)
  | remove (index : ℕ)
  | dequeueFront
  | clear

/-- What a call gives back. -/
inductive Reply (α κ : Type)
  | done
  | item (x : Option α)
  | closure (k : κ)
  deriving DecidableEq, Repr

/-- The elements that a closure selects, which sees each of them once and in order. -/
def select (f : κ → α → Bool × κ) : κ → List α → κ × List α
  | k,[] => (k,[])
  | k,x::xs =>
    let r := select f (f k x).2 xs
    (r.1,if (f k x).1 then x::r.2 else r.2)

lemma select_sublist (f : κ → α → Bool × κ) (k : κ) (xs : List α) :
    (select f k xs).2.Sublist xs := by
  induction xs generalizing k with
  | nil => exact List.Sublist.slnil
  | cons x xs ih =>
    rw [select]
    split_ifs
    · exact (ih _).cons_cons x
    · exact (ih _).cons x

/-- Without a state the closure is a predicate. -/
lemma select_filter (p : α → Bool) (xs : List α) :
    (select (fun (_ : Unit) x => (p x,())) () xs).2 = xs.filter p := by
  induction xs with
  | nil => rfl
  | cons x xs ih => rw [select,List.filter_cons,ih]

/-- The calls on a list. Only `remove` may panic, for an index outside the list. -/
def call (N : ℕ) (full : ε) : Call α κ → Proc (List α) ε (Reply α κ)
  | .push item => ⟨fun l => if l.length < N then .ok .done (l ++ [item]) else .err full l⟩
  | .pop => ⟨fun l => .ok (.item l.getLast?) l.dropLast⟩
  | .extendFromSlice items => ⟨fun l =>
    if l.length+items.length ≤ N then .ok .done (l ++ items) else .err full l⟩
  | .retain f k => ⟨fun l => .ok (.closure (select f k l).1) (select f k l).2⟩
  | .remove index => ⟨fun l => if index < l.length then .ok .done (l.eraseIdx index) else .abort .panic⟩
  | .dequeueFront => ⟨fun l => .ok (.item l.head?) l.tail⟩
  | .clear => ⟨fun _ => .ok .done []⟩

/-- The call removes nothing, or an element that is there. -/
def InRange (l : List α) : Call α κ → Prop
  | .remove index => index < l.length
  | _ => True

lemma call_returns_iff {c : Call α κ} {l : List α} : (call N full c l).Returns ↔ InRange l c := by
  cases c with
  | push item =>
    simp only [call,InRange]
    split_ifs <;> simp
  | extendFromSlice items =>
    simp only [call,InRange]
    split_ifs <;> simp
  | remove index =>
    simp only [call,InRange]
    split_ifs with h <;> simp [h]
  | pop => simp [call,InRange]
  | retain f k => simp [call,InRange]
  | dequeueFront => simp [call,InRange]
  | clear => simp [call,InRange]

/-- The elements at the positions that a call takes off the end of the list, apart from the one that
`pop` gives back. -/
def vacated (l : List α) : Call α κ → List α
  | .retain f k => l.drop (select f k l).2.length
  | .remove _ => l.drop (l.length-1)
  | .dequeueFront => l.drop (l.length-1)
  | .clear => l
  | _ => []

/-- Take an element off the front. -/
def next : Proc (List α) ε (Option α) := ⟨fun l => .ok l.head? l.tail⟩

@[simp] lemma next_nil : (next : Proc (List α) ε (Option α)) [] = .ok none [] := rfl
@[simp] lemma next_cons (x : α) (l : List α) :
    (next : Proc (List α) ε (Option α)) (x::l) = .ok (some x) l := rfl

/-- Each element once and in order, then nothing for ever. -/
lemma times_next (n : ℕ) (l : List α) :
    (next : Proc (List α) ε (Option α)).times n l =
      .ok ((List.range n).map (l[·]?)) (l.drop n) := by
  induction n generalizing l with
  | zero => rfl
  | succ n ih =>
    have htail : l.tail.drop n = l.drop (n+1) := by
      rw [List.drop_tail]
    have hmap : (List.range n).map (l.tail[·]?) = (List.range n).map (fun i => l[i+1]?) := by
      apply List.map_congr_left
      intro i _
      rw [List.getElem?_tail]
    rw [Proc.times,Proc.bind_apply]
    change (Proc.times next n >>= fun xs => pure (l.head?::xs)).run l.tail = _
    rw [Proc.bind_apply,ih,hmap,htail,List.range_succ_eq_map,List.map_cons,List.map_map,
      ← List.head?_eq_getElem?]
    rfl

end BoundedList

end Rust
