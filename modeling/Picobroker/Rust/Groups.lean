import Mathlib

/-! Groups: a list of keys, each with the list of its members. A proper one stores a finite relation
between members and keys. -/
namespace Rust

variable {κ α : Type}

/-- Keys are distinct, and a group has at least one member and none twice. -/
structure Proper (g : List (κ × List α)) : Prop where
  keys : (g.map Prod.fst).Nodup
  members : ∀ e ∈ g, e.2.Nodup
  nonempty : ∀ e ∈ g, e.2 ≠ []

/-- Two groups of one key are the same. -/
lemma Proper.unique {g : List (κ × List α)} (h : Proper g) {k : κ} {l l' : List α}
    (hl : (k,l) ∈ g) (hl' : (k,l') ∈ g) : l = l' :=
  congrArg Prod.snd (List.inj_on_of_nodup_map h.keys hl hl' rfl)

/-- The pairs come without repetition. -/
lemma Proper.nodup_flatMap {g : List (κ × List α)} (h : Proper g) :
    (g.flatMap (fun e => e.2.map (·,e.1))).Nodup := by
  rw [List.nodup_flatMap]
  constructor
  · intro e he
    exact (h.members e he).map (fun _ _ hab => congrArg Prod.fst hab)
  · have hkeys := h.keys
    rw [List.Nodup,List.pairwise_map] at hkeys
    refine hkeys.imp ?_
    intro e e' hne
    rw [Function.onFun,List.disjoint_left]
    intro x hx hx'
    obtain ⟨a,-,rfl⟩ := List.mem_map.mp hx
    obtain ⟨b,-,heq⟩ := List.mem_map.mp hx'
    exact hne (congrArg Prod.snd heq).symm

/-- The member leaves the groups that `p` picks, and groups without members go. -/
def eraseMember [DecidableEq α] (g : List (κ × List α)) (a : α) (p : κ → Bool) : List (κ × List α) :=
  (g.map (fun e => (e.1,if p e.1 then e.2.erase a else e.2))).filter (fun e => !e.2.isEmpty)

lemma eraseMember_append [DecidableEq α] (g g' : List (κ × List α)) (a : α) (p : κ → Bool) :
    eraseMember (g ++ g') a p = eraseMember g a p ++ eraseMember g' a p := by
  rw [eraseMember,List.map_append,List.filter_append]
  rfl

/-- Erasing somebody who is in none of the picked groups leaves the groups with members. -/
lemma eraseMember_eq_self [DecidableEq α] {g : List (κ × List α)} {a : α} {p : κ → Bool}
    (hp : ∀ e ∈ g, p e.1 = true → a ∉ e.2) (hne : ∀ e ∈ g, e.2 ≠ []) : eraseMember g a p = g := by
  have hmap : g.map (fun e => (e.1,if p e.1 then e.2.erase a else e.2)) = g := by
    conv_rhs => rw [← List.map_id g]
    apply List.map_congr_left
    intro e he
    split_ifs with hpe
    · rw [List.erase_of_not_mem (hp e he hpe)]
      rfl
    · rfl
  rw [eraseMember,hmap,List.filter_eq_self]
  intro e he
  rw [Bool.not_eq_true',← Bool.not_eq_true,List.isEmpty_iff]
  exact hne e he

/-- Groups without members make no difference. -/
lemma eraseMember_filter [DecidableEq α] (g : List (κ × List α)) (a : α) (p : κ → Bool) :
    eraseMember (g.filter (fun e => !e.2.isEmpty)) a p = eraseMember g a p := by
  induction g with
  | nil => rfl
  | cons e g ih =>
    rw [List.filter_cons]
    split_ifs with he
    · rw [← List.singleton_append,eraseMember_append,ih,← eraseMember_append,List.singleton_append]
    · have hnil : e.2 = [] := by simpa using he
      have hone : eraseMember [e] a p = [] := by
        simp [eraseMember,hnil]
      rw [ih,← List.singleton_append (x := e),eraseMember_append,hone,List.nil_append]

/-- The order in which two members are erased makes no difference. -/
lemma eraseMember_comm [DecidableEq α] (g : List (κ × List α)) (a b : α) (p q : κ → Bool) :
    eraseMember (eraseMember g a p) b q = eraseMember (eraseMember g b q) a p := by
  rw [eraseMember.eq_1 g a p,eraseMember.eq_1 g b q,eraseMember_filter,eraseMember_filter,
    eraseMember,eraseMember,List.map_map,List.map_map]
  congr 1
  apply List.map_congr_left
  intro e _
  rw [Function.comp_apply,Function.comp_apply]
  split_ifs
  · rw [List.erase_comm]
  · rfl
  · rfl
  · rfl

lemma Proper.eraseMember [DecidableEq α] {g : List (κ × List α)} (h : Proper g) (a : α)
    (p : κ → Bool) : Proper (eraseMember g a p) := by
  refine ⟨?_,?_,?_⟩
  · refine List.Nodup.sublist (List.filter_sublist.map Prod.fst) ?_
    rw [List.map_map]
    exact h.keys
  · intro e he
    obtain ⟨e,he',rfl⟩ := List.mem_map.mp (List.mem_of_mem_filter he)
    split_ifs
    · exact (h.members e he').erase a
    · exact h.members e he'
  · intro e he hnil
    have hne := List.of_mem_filter he
    rw [hnil] at hne
    cases hne

variable [DecidableEq κ] [DecidableEq α]

/-- The pairs of a member and the key of its group. -/
def pairs (g : List (κ × List α)) : Finset (α × κ) :=
  (g.flatMap (fun e => e.2.map (·,e.1))).toFinset

lemma mem_pairs {g : List (κ × List α)} {a : α} {k : κ} :
    (a,k) ∈ pairs g ↔ ∃ l, (k,l) ∈ g ∧ a ∈ l := by
  simp only [pairs,List.mem_toFinset,List.mem_flatMap,List.mem_map,Prod.mk.injEq]
  constructor
  · intro ⟨⟨k',l⟩,he,x,hx,hxa,hk⟩
    subst hxa hk
    exact ⟨l,he,hx⟩
  · intro ⟨l,he,ha⟩
    exact ⟨(k,l),he,a,ha,rfl,rfl⟩

@[simp] lemma pairs_nil : pairs ([] : List (κ × List α)) = ∅ := rfl

/-- A new member of a group. -/
lemma pairs_join (pre post : List (κ × List α)) (k : κ) (l : List α) (a : α) :
    pairs (pre ++ (k,l ++ [a])::post) = insert (a,k) (pairs (pre ++ (k,l)::post)) := by
  ext ⟨b,j⟩
  rw [Finset.mem_insert,mem_pairs,mem_pairs]
  simp only [List.mem_append,List.mem_cons,Prod.mk.injEq]
  constructor
  · intro ⟨l',hl',hb⟩
    obtain hl' | ⟨rfl,rfl⟩ | hl' := hl'
    · exact .inr ⟨l',.inl hl',hb⟩
    · rw [List.mem_append,List.mem_singleton] at hb
      obtain hb | hb := hb
      · exact .inr ⟨l,.inr (.inl ⟨rfl,rfl⟩),hb⟩
      · exact .inl ⟨hb,rfl⟩
    · exact .inr ⟨l',.inr (.inr hl'),hb⟩
  · intro h
    obtain ⟨rfl,rfl⟩ | ⟨l',hl' | ⟨rfl,rfl⟩ | hl',hb⟩ := h
    · exact ⟨l ++ [b],.inr (.inl ⟨rfl,rfl⟩),by simp⟩
    · exact ⟨l',.inl hl',hb⟩
    · exact ⟨l' ++ [a],.inr (.inl ⟨rfl,rfl⟩),by simp [hb]⟩
    · exact ⟨l',.inr (.inr hl'),hb⟩

/-- A new group. -/
lemma pairs_concat (g : List (κ × List α)) (k : κ) (a : α) :
    pairs (g ++ [(k,[a])]) = insert (a,k) (pairs g) := by
  ext ⟨b,j⟩
  rw [Finset.mem_insert,mem_pairs,mem_pairs]
  simp only [List.mem_append,List.mem_singleton,Prod.mk.injEq]
  constructor
  · intro ⟨l,hl,hb⟩
    obtain hl | ⟨rfl,rfl⟩ := hl
    · exact .inr ⟨l,hl,hb⟩
    · exact .inl ⟨List.mem_singleton.mp hb,rfl⟩
  · intro h
    obtain ⟨rfl,rfl⟩ | ⟨l,hl,hb⟩ := h
    · exact ⟨[b],.inr ⟨rfl,rfl⟩,List.mem_singleton_self b⟩
    · exact ⟨l,.inl hl,hb⟩

/-- Erasing removes the pairs of the member with the picked keys. -/
lemma pairs_eraseMember {g : List (κ × List α)} (h : ∀ e ∈ g, e.2.Nodup) (a : α) (p : κ → Bool) :
    pairs (eraseMember g a p) = (pairs g).filter (fun x => ¬ (x.1 = a ∧ p x.2 = true)) := by
  ext ⟨b,k⟩
  rw [Finset.mem_filter,mem_pairs,mem_pairs]
  constructor
  · intro ⟨l,hl,hb⟩
    obtain ⟨⟨j,l'⟩,he,heq⟩ := List.mem_map.mp (List.mem_of_mem_filter hl)
    obtain ⟨rfl,rfl⟩ := Prod.mk.inj heq
    by_cases hp : p j = true
    · rw [if_pos hp,(h _ he).mem_erase_iff] at hb
      exact ⟨⟨l',he,hb.2⟩,fun hn => hb.1 hn.1⟩
    · rw [if_neg hp] at hb
      exact ⟨⟨l',he,hb⟩,fun hn => hp hn.2⟩
  · intro ⟨⟨l,hl,hb⟩,hn⟩
    have hmem : b ∈ if p k then l.erase a else l := by
      split_ifs with hp
      · rw [(h _ hl).mem_erase_iff]
        exact ⟨fun hba => hn ⟨hba,hp⟩,hb⟩
      · exact hb
    refine ⟨_,List.mem_filter.mpr ⟨List.mem_map.mpr ⟨(k,l),hl,rfl⟩,?_⟩,hmem⟩
    rw [Bool.not_eq_true',← Bool.not_eq_true,List.isEmpty_iff]
    exact List.ne_nil_of_mem hmem

/-- The keys of a relation that a proper list stores are the keys of the list. -/
lemma Proper.image_snd {g : List (κ × List α)} (h : Proper g) :
    (pairs g).image Prod.snd = (g.map Prod.fst).toFinset := by
  ext k
  rw [Finset.mem_image,List.mem_toFinset,List.mem_map]
  constructor
  · intro ⟨⟨a,k'⟩,ha,hk⟩
    subst hk
    obtain ⟨l,hl,-⟩ := mem_pairs.mp ha
    exact ⟨(k',l),hl,rfl⟩
  · intro ⟨⟨k',l⟩,hl,hk⟩
    subst hk
    obtain ⟨a,ha⟩ := List.exists_mem_of_ne_nil l (h.nonempty _ hl)
    exact ⟨(a,k'),mem_pairs.mpr ⟨l,hl,ha⟩,rfl⟩

/-- As many keys as groups. -/
lemma Proper.card_keys {g : List (κ × List α)} (h : Proper g) :
    ((pairs g).image Prod.snd).card = g.length := by
  rw [h.image_snd,List.toFinset_card_of_nodup h.keys,List.length_map]

/-- As many pairs as the groups have members together. -/
lemma Proper.card_pairs {g : List (κ × List α)} (h : Proper g) :
    (pairs g).card = (g.map (fun e => e.2.length)).sum := by
  rw [pairs,List.toFinset_card_of_nodup h.nodup_flatMap,List.length_flatMap]
  simp only [List.length_map]

/-- The members of one group. -/
lemma Proper.card_group {g : List (κ × List α)} (h : Proper g) {k : κ} {l : List α}
    (hl : (k,l) ∈ g) : ((pairs g).filter (fun x => x.2 = k)).card = l.length := by
  have heq : (pairs g).filter (fun x => x.2 = k) = (l.map (·,k)).toFinset := by
    ext ⟨a,j⟩
    rw [Finset.mem_filter,mem_pairs,List.mem_toFinset,List.mem_map]
    constructor
    · intro ⟨⟨l',hl',ha⟩,hj⟩
      subst hj
      rw [h.unique hl' hl] at ha
      exact ⟨a,ha,rfl⟩
    · intro ⟨b,hb,heq⟩
      obtain ⟨rfl,rfl⟩ := Prod.mk.inj heq
      exact ⟨⟨l,hl,hb⟩,rfl⟩
  rw [heq,List.toFinset_card_of_nodup,List.length_map]
  exact (h.members _ hl).map (fun _ _ hab => congrArg Prod.fst hab)

/-- The groups that have the member. -/
lemma Proper.card_member {g : List (κ × List α)} (h : Proper g) (a : α) :
    ((pairs g).filter (fun x => x.1 = a)).card = g.countP (fun e => a ∈ e.2) := by
  have heq : (pairs g).filter (fun x => x.1 = a) =
      ((g.filter (fun e => a ∈ e.2)).map (fun e => (a,e.1))).toFinset := by
    ext ⟨b,k⟩
    rw [Finset.mem_filter,mem_pairs,List.mem_toFinset,List.mem_map]
    constructor
    · intro ⟨⟨l,hl,hb⟩,hba⟩
      subst hba
      exact ⟨(k,l),List.mem_filter.mpr ⟨hl,decide_eq_true hb⟩,rfl⟩
    · intro ⟨e,he,heq⟩
      obtain ⟨rfl,rfl⟩ := Prod.mk.inj heq
      obtain ⟨he,hmem⟩ := List.mem_filter.mp he
      exact ⟨⟨e.2,he,of_decide_eq_true hmem⟩,rfl⟩
  rw [heq,List.toFinset_card_of_nodup,List.length_map,List.countP_eq_length_filter]
  have hkeys := (List.filter_sublist (p := fun e => decide (a ∈ e.2)) (l := g)).map Prod.fst
  have hnodup := List.Nodup.sublist hkeys h.keys
  rw [List.Nodup,List.pairwise_map] at hnodup ⊢
  exact hnodup.imp (fun hne he => hne (congrArg Prod.snd he))

end Rust
