import Mathlib

/-! Matching of level sequences against filters with two wildcards: `one` stands for a single level,
`rest` in the last place for everything that is left. -/
namespace Wildcard

variable {L : Type} [DecidableEq L] (one rest : L)

/-- Whether the levels match the filter. A `rest` that is not the last level is a literal. -/
def matchLevels : List L → List L → Bool
  | [],[] => true
  | _::_,[] => false
  | [],b::f => b = rest ∧ f = []
  | a::p,b::f => (b = rest ∧ f = []) ∨ ((b = one ∨ a = b) ∧ matchLevels p f)

variable {one rest}

@[simp] lemma matchLevels_nil_nil : matchLevels one rest [] [] = true := rfl

@[simp] lemma matchLevels_cons_nil (a : L) (p : List L) :
    matchLevels one rest (a::p) [] = false := rfl

/-- The last level `rest` takes whatever is left, also nothing. -/
@[simp] lemma matchLevels_rest (p : List L) : matchLevels one rest p [rest] = true := by
  cases p <;> simp [matchLevels]

lemma matchLevels_nil_cons {b : L} {f : List L} (h : ¬ (b = rest ∧ f = [])) :
    matchLevels one rest [] (b::f) = false := by
  simpa [matchLevels] using h

/-- The wildcard `one` takes any single level. -/
lemma matchLevels_one (hne : one ≠ rest) (a : L) (p f : List L) :
    matchLevels one rest (a::p) (one::f) = matchLevels one rest p f := by
  simp [matchLevels,hne]

/-- Any other level is matched by itself only. -/
lemma matchLevels_literal {b : L} {f : List L} (h : ¬ (b = rest ∧ f = [])) (hone : b ≠ one) (a : L)
    (p : List L) : matchLevels one rest (a::p) (b::f) = (decide (a = b) && matchLevels one rest p f) := by
  rw [matchLevels]
  by_cases ha : a = b <;> simp [h,hone,ha]

variable (rest)

/-- The levels without those that stand right behind a `rest`. -/
def skipBehind : List L → List L
  | [] => []
  | [b] => [b]
  | b::c::f => if b = rest then b::skipBehind f else b::skipBehind (c::f)

@[simp] lemma skipBehind_nil : skipBehind rest [] = [] := rfl

@[simp] lemma skipBehind_rest (f : List L) :
    skipBehind rest (rest::f) = rest::skipBehind rest f.tail := by
  cases f with
  | nil => rfl
  | cons c f => rw [skipBehind,if_pos rfl,List.tail_cons]

variable {rest}

lemma skipBehind_cons {b : L} (h : b ≠ rest) (f : List L) :
    skipBehind rest (b::f) = b::skipBehind rest f := by
  cases f with
  | nil => rfl
  | cons c f => rw [skipBehind,if_neg h]

/-- The first level stays. -/
lemma exists_skipBehind_cons (b : L) (f : List L) : ∃ g, skipBehind rest (b::f) = b::g := by
  by_cases h : b = rest
  · rw [h]
    exact ⟨_,skipBehind_rest rest f⟩
  · exact ⟨_,skipBehind_cons h f⟩

lemma skipBehind_of_not_mem {f : List L} (h : rest ∉ f) : skipBehind rest f = f := by
  induction f with
  | nil => rfl
  | cons b f ih =>
    rw [List.mem_cons,not_or] at h
    rw [skipBehind_cons (Ne.symm h.1),ih h.2]

lemma length_skipBehind_le (f : List L) : (skipBehind rest f).length ≤ f.length := by
  fun_induction skipBehind rest f with
  | case1 => exact le_rfl
  | case2 b => exact le_rfl
  | case3 c f ih =>
    simp only [List.length_cons]
    omega
  | case4 b c f hb ih =>
    simp only [List.length_cons] at ih ⊢
    omega

/-- Behind a `rest` that is not the last level, a level is missing. -/
lemma length_skipBehind_lt {f : List L} (hmem : rest ∈ f) (hlast : f.getLast? ≠ some rest) :
    (skipBehind rest f).length < f.length := by
  induction f with
  | nil => cases hmem
  | cons b f ih =>
    by_cases hb : b = rest
    · subst hb
      cases f with
      | nil => exact absurd rfl hlast
      | cons c f =>
        have hle : (skipBehind b f).length ≤ f.length := length_skipBehind_le f
        rw [skipBehind_rest,List.tail_cons]
        simp only [List.length_cons]
        omega
    · have hf : rest ∈ f := (List.mem_cons.mp hmem).resolve_left (Ne.symm hb)
      obtain ⟨c,g,rfl⟩ := List.exists_cons_of_ne_nil (List.ne_nil_of_mem hf)
      rw [List.getLast?_cons_cons] at hlast
      rw [skipBehind_cons hb,List.length_cons,List.length_cons]
      exact Nat.succ_lt_succ (ih hf hlast)

lemma skipBehind_eq_self_iff {f : List L} (hlast : f.getLast? ≠ some rest) :
    skipBehind rest f = f ↔ rest ∉ f := by
  constructor
  · intro h hmem
    have hlt := length_skipBehind_lt hmem hlast
    rw [h] at hlt
    exact lt_irrefl _ hlt
  · exact skipBehind_of_not_mem

end Wildcard
