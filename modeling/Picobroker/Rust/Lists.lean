import Mathlib

/-! Lists searched for a first match, and lists collected without repetition up to a bound. -/
namespace Rust

variable {α β : Type}

/-- Searching from the front: either nothing matches, or the list splits at the first match. -/
lemma findFinIdx?_cases (p : α → Bool) (xs : List α) :
    (xs.findFinIdx? p = none ∧ ∀ x ∈ xs, p x = false) ∨
    ∃ i pre post, xs.findFinIdx? p = some i ∧ xs = pre ++ xs[i]::post ∧ i.val = pre.length ∧
      p xs[i] = true ∧ ∀ x ∈ pre, p x = false := by
  cases h : xs.findFinIdx? p with
  | none =>
    refine .inl ⟨rfl,?_⟩
    intro x hx
    simpa using List.findFinIdx?_eq_none_iff.mp h x hx
  | some i =>
    obtain ⟨hp,hlt⟩ := List.findFinIdx?_eq_some_iff.mp h
    refine .inr ⟨i,xs.take i,xs.drop (i+1),rfl,?_,?_,hp,?_⟩
    · have hd : xs.drop i = xs[i.val] :: xs.drop (i+1) := List.drop_eq_getElem_cons i.isLt
      have ht := List.take_append_drop i.val xs
      rw [hd] at ht
      exact ht.symm
    · rw [List.length_take,Nat.min_eq_left i.isLt.le]
    · intro x hx
      obtain ⟨j,hj,rfl⟩ := List.mem_take_iff_getElem.mp hx
      rw [lt_min_iff] at hj
      simpa using hlt ⟨j,hj.2⟩ hj.1

/-- With distinct keys, erasing the first element of a key erases every element of it. -/
lemma eraseP_eq_filter [DecidableEq β] {key : α → β} {xs : List α} (h : (xs.map key).Nodup) (b : β) :
    xs.eraseP (key · == b) = xs.filter (key · != b) := by
  induction xs with
  | nil => rfl
  | cons x xs ih =>
    rw [List.map_cons,List.nodup_cons] at h
    rw [List.eraseP_cons,List.filter_cons]
    by_cases hx : key x = b
    · simp only [hx,beq_self_eq_true,cond_true,bne_self_eq_false,Bool.false_eq_true,if_false]
      symm
      rw [List.filter_eq_self]
      intro y hy
      rw [bne_iff_ne]
      intro hyb
      apply h.1
      rw [hx,← hyb]
      exact List.mem_map_of_mem hy
    · have hx' : (key x == b) = false := by simpa using hx
      have hx'' : (key x != b) = true := by simpa using hx
      rw [hx',hx'',cond_false,if_pos rfl,ih h.2]

/-- A bounded prefix of a list without repetition loses somebody exactly when it is shorter. -/
lemma mem_take_iff_length_le {xs : List α} (h : xs.Nodup) (n : ℕ) :
    (∀ a ∈ xs, a ∈ xs.take n) ↔ xs.length ≤ n := by
  constructor
  · intro hall
    by_contra hn
    have hn : n < xs.length := by omega
    have hmem := hall xs[n] (List.getElem_mem hn)
    obtain ⟨j,hj,he⟩ := List.mem_take_iff_getElem.mp hmem
    rw [lt_min_iff] at hj
    have := (List.Nodup.getElem_inj_iff h).mp he
    omega
  · intro hn a ha
    rwa [List.take_of_length_le hn]

section Distinct

variable [DecidableEq α]

/-- Collecting one more element. -/
lemma eraseDups_concat (xs : List α) (x : α) :
    (xs ++ [x]).eraseDups = if x ∈ xs then xs.eraseDups else xs.eraseDups ++ [x] := by
  rw [List.eraseDups_append,List.cons_removeAll]
  by_cases h : x ∈ xs
  · simp [h,List.removeAll]
  · simp [h,List.removeAll,List.eraseDups_cons]

lemma nodup_eraseDups (xs : List α) : xs.eraseDups.Nodup := by
  induction xs using List.reverseRecOn with
  | nil => exact List.nodup_nil
  | append_singleton xs x ih =>
    rw [eraseDups_concat]
    split_ifs with h
    · exact ih
    · rw [List.nodup_append]
      refine ⟨ih,List.nodup_singleton x,?_⟩
      intro a ha b hb
      rw [List.mem_singleton] at hb
      rw [List.mem_eraseDups] at ha
      intro hab
      apply h
      rw [← hb,← hab]
      exact ha

/-- As many elements as the set of them has. -/
lemma length_eraseDups (xs : List α) : xs.eraseDups.length = xs.toFinset.card := by
  rw [← List.toFinset_card_of_nodup (nodup_eraseDups xs)]
  congr 1
  ext a
  rw [List.mem_toFinset,List.mem_toFinset,List.mem_eraseDups]

end Distinct

/-- Fill an array from the front with the selected values, as long as a slot is left. -/
def fillSlots (select : α → Option β) : List α → List (Option β) → ℕ → List (Option β)
  | [],slots,_ => slots
  | x::xs,slots,count =>
    match select x with
    | some y =>
      if count < slots.length then fillSlots select xs (slots.set count (some y)) (count+1)
      else fillSlots select xs slots count
    | none => fillSlots select xs slots count

lemma reduceOption_fillSlots_append (select : α → Option β) (xs : List α) (ys : List β) (m : ℕ) :
    (fillSlots select xs (ys.map some ++ List.replicate m none) ys.length).reduceOption =
      ys ++ (xs.filterMap select).take m := by
  induction xs generalizing ys m with
  | nil => simp [fillSlots,List.reduceOption]
  | cons x xs ih =>
    rw [fillSlots,List.filterMap_cons]
    cases hx : select x with
    | none => exact ih ys m
    | some y =>
      cases m with
      | zero => simpa using ih ys 0
      | succ m =>
        have h := ih (ys ++ [y]) m
        simpa [List.set_append_right,List.replicate_succ] using h

/-- Of the selected values, the first `n` fill the array. -/
lemma reduceOption_fillSlots (select : α → Option β) (xs : List α) (n : ℕ) :
    (fillSlots select xs (List.replicate n none) 0).reduceOption =
      (xs.filterMap select).take n := by
  simpa using reduceOption_fillSlots_append select xs [] n

/-- A walk that stops at `x`, after members that all have the property: it passes every member that
has it exactly when no member without it stands before one that has it. -/
lemma stop_iff_inOrder {p : α → Prop} {pre post : List α} {x : α} (h : (pre ++ x::post).Nodup)
    (hpre : ∀ y ∈ pre, p y) (hx : ¬ p x) :
    (∀ y ∈ pre ++ x::post, p y → y ∈ pre) ↔
      ∀ pre' y post', pre ++ x::post = pre' ++ y::post' → p y → ∀ z ∈ pre', p z := by
  constructor
  · intro hall pre' y post' hsplit hy z hz
    have hmem : y ∈ pre := by
      apply hall y _ hy
      rw [hsplit]
      exact List.mem_append_right _ List.mem_cons_self
    obtain ⟨l,hl,hl'⟩ | ⟨l,hl,-⟩ := List.append_eq_append_iff.mp hsplit
    · -- then `y` would stand behind `x` once more
      have hagain : y ∈ x::post := by
        rw [hl']
        exact List.mem_append_right _ List.mem_cons_self
      exact absurd hagain (List.disjoint_of_nodup_append h hmem)
    · apply hpre
      rw [hl]
      exact List.mem_append_left l hz
  · intro horder y hmem hy
    obtain hmem | hmem := List.mem_append.mp hmem
    · exact hmem
    · exfalso
      apply hx
      obtain rfl | hmem := List.mem_cons.mp hmem
      · exact hy
      · obtain ⟨l,l',rfl⟩ := List.append_of_mem hmem
        have hsplit : pre ++ x::(l ++ y::l') = (pre ++ x::l) ++ y::l' := by
          rw [List.append_assoc,List.cons_append]
        apply horder _ y l' hsplit hy
        exact List.mem_append_right _ List.mem_cons_self

end Rust
