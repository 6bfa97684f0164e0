import Picobroker.Rust.Groups
import Picobroker.Topics.Subscribers

/-! What the topic registry is for: a finite relation between sessions and filters. Every operation
of the registry is an operation on this relation. -/
namespace Picobroker
open Rust

namespace TopicRegistry

variable {T M B : ℕ}

/-- A filter with its subscribers. -/
def groupOf (entry : TopicEntry T B) : TopicName T × List ℕ :=
  (entry.topicName,entry.subscribers.asSlice)

@[simp] lemma groupOf_fst (entry : TopicEntry T B) : (groupOf entry).1 = entry.topicName := rfl
@[simp] lemma groupOf_snd (entry : TopicEntry T B) :
    (groupOf entry).2 = entry.subscribers.asSlice := rfl

/-- The filters with their subscribers. -/
def groups (registry : TopicRegistry T M B) : List (TopicName T × List ℕ) :=
  registry.topics.asSlice.map groupOf

/-- The sessions with the filters they subscribe to. -/
def relation (registry : TopicRegistry T M B) : Finset (ℕ × TopicName T) := pairs registry.groups

/-- The filters that somebody subscribes to. -/
def filters (registry : TopicRegistry T M B) : Finset (TopicName T) :=
  registry.relation.image Prod.snd

/-- Who subscribes to the filter. -/
def subscribersOf (registry : TopicRegistry T M B) (filter : TopicName T) :
    Finset (ℕ × TopicName T) :=
  registry.relation.filter (fun x => x.2 = filter)

variable {registry : TopicRegistry T M B} {sessionId : ℕ} {filter : TopicName T}

lemma wellFormed_iff_proper : registry.WellFormed ↔ Proper registry.groups := by
  have hkeys : registry.groups.map Prod.fst = registry.topics.asSlice.map (·.topicName) := by
    rw [groups,List.map_map]
    rfl
  have hall : ∀ I : List ℕ → Prop, (∀ e ∈ registry.groups, I e.2) ↔ registry.EveryEntry I := by
    intro I
    rw [groups,List.forall_mem_map]
    rfl
  constructor
  · intro h
    exact ⟨by rw [hkeys]; exact h.distinct,(hall _).mpr h.nodup,(hall _).mpr h.nonempty⟩
  · intro h
    exact ⟨by rw [Distinct,← hkeys]; exact h.keys,(hall _).mp h.members,(hall _).mp h.nonempty⟩

lemma WellFormed.proper (h : registry.WellFormed) : Proper registry.groups :=
  wellFormed_iff_proper.mp h

lemma mem_relation : (sessionId,filter) ∈ registry.relation ↔
    ∃ entry ∈ registry.topics.asSlice, entry.topicName = filter ∧
      sessionId ∈ entry.subscribers.asSlice := by
  rw [relation,mem_pairs,groups]
  constructor
  · intro ⟨l,hl,hs⟩
    obtain ⟨entry,he,heq⟩ := List.mem_map.mp hl
    obtain ⟨rfl,rfl⟩ := Prod.mk.inj heq
    exact ⟨entry,he,rfl,hs⟩
  · intro ⟨entry,he,hname,hs⟩
    subst hname
    exact ⟨_,List.mem_map.mpr ⟨entry,he,rfl⟩,hs⟩

lemma WellFormed.mem_filters (h : registry.WellFormed) : filter ∈ registry.filters ↔
    ∃ entry ∈ registry.topics.asSlice, entry.topicName = filter := by
  rw [filters,relation,h.proper.image_snd,List.mem_toFinset,groups,List.map_map,List.mem_map]
  rfl

/-- As many filters as entries. -/
lemma WellFormed.card_filters (h : registry.WellFormed) :
    registry.filters.card = registry.topics.length := by
  rw [filters,relation,h.proper.card_keys,groups,List.length_map,HeaplessVec.asSlice_length]

/-- As many subscribers of a filter as its entry lists. -/
lemma WellFormed.card_subscribersOf (h : registry.WellFormed) {entry : TopicEntry T B}
    (he : entry ∈ registry.topics.asSlice) :
    (registry.subscribersOf entry.topicName).card = entry.subscribers.length := by
  rw [subscribersOf,relation,h.proper.card_group (List.mem_map.mpr ⟨entry,he,rfl⟩),
    HeaplessVec.asSlice_length]

lemma isEmpty_groupOf (entry : TopicEntry T B) : entry.isEmpty = (groupOf entry).2.isEmpty := by
  rw [Bool.eq_iff_iff,isEmpty_iff,List.isEmpty_iff,groupOf_snd]

lemma groupOf_removeSubscriber (entry : TopicEntry T B) : groupOf (entry.removeSubscriber sessionId).2 =
    (entry.topicName,entry.subscribers.asSlice.erase sessionId) := by
  rw [groupOf,TopicEntry.removeSubscriber_topicName,TopicEntry.removeSubscriber_subscribers]

/-- Unregistering erases the session from every group. -/
lemma groups_unregisterAll (sessionId : ℕ) (registry : TopicRegistry T M B) :
    (registry.unregisterAll sessionId).2.groups =
      eraseMember registry.groups sessionId (fun _ => true) := by
  have hempty : (fun entry : TopicEntry T B => !entry.isEmpty) =
      (fun e : TopicName T × List ℕ => !e.2.isEmpty) ∘ groupOf := by
    funext entry
    rw [isEmpty_groupOf]
    rfl
  rw [groups,unregisterAll_asSlice,hempty,← List.filter_map,List.map_map,eraseMember,groups,
    List.map_map]
  congr 1
  apply List.map_congr_left
  intro entry _
  exact groupOf_removeSubscriber entry

/-- What unsubscribing does: the first entry of the filter loses the session, and goes if it has lost
its last subscriber. -/
lemma unsubscribe_cases (sessionId : ℕ) (filter : TopicName T) (registry : TopicRegistry T M B) :
    ((∀ entry ∈ registry.topics.asSlice, entry.topicName ≠ filter) ∧
      registry.unsubscribe sessionId filter = (false,registry)) ∨
    ∃ pre entry post, registry.topics.asSlice = pre ++ entry::post ∧ entry.topicName = filter ∧
      (registry.unsubscribe sessionId filter).1 = entry.subscribers.asSlice.elem sessionId ∧
      (registry.unsubscribe sessionId filter).2.topics.asSlice = pre ++
        if (entry.removeSubscriber sessionId).2.isEmpty then post
        else (entry.removeSubscriber sessionId).2::post := by
  unfold unsubscribe
  obtain ⟨hf,hno⟩ | ⟨i,pre,post,hf,hsplit,hi,hp,-⟩ :=
    findFinIdx?_cases (·.topicName == filter) registry.topics.asSlice
  · rw [hf]
    refine .inl ⟨?_,rfl⟩
    intro entry he
    simpa using hno entry he
  · rw [hf]
    refine .inr ⟨pre,registry.topics.asSlice[i],post,hsplit,by simpa using hp,
      TopicEntry.removeSubscriber_fst _ _,?_⟩
    have hset : ∀ item, (registry.topics.store i item).asSlice = pre ++ item::post := by
      intro item
      rw [HeaplessVec.asSlice_store,hi,hsplit,List.set_append_right _ _ le_rfl,Nat.sub_self,
        List.set_cons_zero]
    simp only
    split_ifs
    · rw [HeaplessVec.asSlice_remove,hset,hi,List.eraseIdx_append_of_length_le le_rfl,Nat.sub_self,
        List.eraseIdx_cons_zero]
    · exact hset _

/-- No other entry has the filter, and none is empty. -/
lemma WellFormed.others_split (h : registry.WellFormed) (sessionId : ℕ)
    {pre post : List (TopicEntry T B)} {entry : TopicEntry T B}
    (hsplit : registry.topics.asSlice = pre ++ entry::post) (hname : entry.topicName = filter) :
    ∀ e ∈ pre.map groupOf ++ post.map groupOf,
      ((e.1 == filter) = true → sessionId ∉ e.2) ∧ e.2 ≠ [] := by
  have hg : registry.groups = pre.map groupOf ++ groupOf entry::post.map groupOf := by
    rw [groups,hsplit,List.map_append,List.map_cons]
  have hkeys := h.proper.keys
  rw [hg,List.map_append,List.map_cons,List.nodup_middle] at hkeys
  intro e he
  constructor
  · intro hef
    exfalso
    apply (List.nodup_cons.mp hkeys).1
    rw [← List.map_append]
    exact List.mem_map.mpr ⟨e,he,(beq_iff_eq.mp hef).trans hname.symm⟩
  · apply h.proper.nonempty
    rw [hg]
    rw [List.mem_append] at he ⊢
    exact he.imp_right (List.mem_cons_of_mem _)

/-- Unsubscribing erases the session from the group of the filter. -/
lemma WellFormed.groups_unsubscribe (h : registry.WellFormed) (sessionId : ℕ)
    (filter : TopicName T) : (registry.unsubscribe sessionId filter).2.groups =
      eraseMember registry.groups sessionId (· == filter) := by
  obtain ⟨hno,hu⟩ | ⟨pre,entry,post,hsplit,hname,-,hsnd⟩ :=
    unsubscribe_cases sessionId filter registry
  · rw [hu,eraseMember_eq_self ?_ h.proper.nonempty]
    intro e he hname
    obtain ⟨entry,hentry,rfl⟩ := List.mem_map.mp he
    exact absurd (beq_iff_eq.mp hname) (hno entry hentry)
  · have hothers := h.others_split sessionId hsplit hname
    have hpre := fun e he => hothers e (List.mem_append_left _ he)
    have hpost := fun e he => hothers e (List.mem_append_right _ he)
    have hg : registry.groups = pre.map groupOf ++ groupOf entry::post.map groupOf := by
      rw [groups,hsplit,List.map_append,List.map_cons]
    have herase : eraseMember [groupOf entry] sessionId (· == filter) =
        if (entry.removeSubscriber sessionId).2.isEmpty then []
        else [groupOf (entry.removeSubscriber sessionId).2] := by
      rw [isEmpty_groupOf,groupOf_removeSubscriber,eraseMember,List.map_singleton,
        groupOf_fst,groupOf_snd,if_pos (beq_iff_eq.mpr hname),List.filter_singleton]
      cases (entry.subscribers.asSlice.erase sessionId).isEmpty <;> rfl
    rw [hg,← List.singleton_append,eraseMember_append,eraseMember_append,herase,
      eraseMember_eq_self (fun e he => (hpre e he).1) (fun e he => (hpre e he).2),
      eraseMember_eq_self (fun e he => (hpost e he).1) (fun e he => (hpost e he).2),groups,hsnd,
      List.map_append]
    split_ifs <;> rfl

/-- Unsubscribing tells whether the pair was there. -/
lemma WellFormed.unsubscribe_fst (h : registry.WellFormed) (sessionId : ℕ) (filter : TopicName T) :
    (registry.unsubscribe sessionId filter).1 = true ↔ (sessionId,filter) ∈ registry.relation := by
  rw [mem_relation]
  obtain ⟨hno,hu⟩ | ⟨pre,entry,post,hsplit,hname,hfst,-⟩ :=
    unsubscribe_cases sessionId filter registry
  · rw [hu]
    refine ⟨Bool.false_ne_true.elim,?_⟩
    intro ⟨entry,he,hname,_⟩
    exact absurd hname (hno entry he)
  · rw [hfst,List.elem_iff]
    constructor
    · intro hs
      exact ⟨entry,by simp [hsplit],hname,hs⟩
    · intro ⟨entry',he',hname',hs⟩
      have heq : entry' = entry :=
        List.inj_on_of_nodup_map h.distinct he' (by simp [hsplit]) (hname'.trans hname.symm)
      rwa [← heq]

lemma WellFormed.unsubscribe (h : registry.WellFormed) (sessionId : ℕ) (filter : TopicName T) :
    (registry.unsubscribe sessionId filter).2.WellFormed := by
  rw [wellFormed_iff_proper,h.groups_unsubscribe sessionId filter]
  exact h.proper.eraseMember sessionId _

lemma WellFormed.next {call : Call T} {registry' : TopicRegistry T M B} (h : registry.WellFormed)
    (hn : registry.next call = some registry') : registry'.WellFormed := by
  cases call with
  | subscribe sessionId filter => exact h.subscribe sessionId filter registry' hn
  | unsubscribe sessionId filter =>
    cases hn
    exact h.unsubscribe sessionId filter
  | unregisterAll sessionId =>
    cases hn
    exact h.unregisterAll sessionId
  | clearAll =>
    cases hn
    rw [wellFormed_iff_proper,groups,TopicRegistry.clearAll,HeaplessVec.asSlice_clear]
    exact wellFormed_iff_proper.mp (wellFormed_new (T := T) (M := M) (B := B))

lemma wellFormed_of_reachable (h : Reachable next new registry) : registry.WellFormed :=
  h.invariant (I := WellFormed) (fun _ _ _ hr hn => hr.next hn) wellFormed_new

/-- A subscription that the registry takes or already has. -/
lemma relation_subscribe {registry' : TopicRegistry T M B}
    (hok : registry.subscribe sessionId filter = .ok () registry') :
    registry'.relation = insert (sessionId,filter) registry.relation := by
  have hs := subscribe_spec sessionId filter registry
  rw [hok] at hs
  cases hs with
  | already mem name listed =>
    rw [Finset.insert_eq_self.mpr (mem_relation.mpr ⟨_,mem,name,listed⟩)]
  | @joined pre entry post subscribers _ split name _ _ subscribers_eq topics_eq =>
    have hg : registry.groups =
        pre.map groupOf ++ (filter,entry.subscribers.asSlice)::post.map groupOf := by
      rw [groups,split,List.map_append,List.map_cons,groupOf,name]
    have hg' : registry'.groups =
        pre.map groupOf ++ (filter,entry.subscribers.asSlice ++ [sessionId])::post.map groupOf := by
      rw [groups,topics_eq,List.map_append,List.map_cons,groupOf,subscribers_eq]
    rw [relation,relation,hg,hg',pairs_join]
  | added _ _ _ subscribers_eq topics_eq =>
    have hg : registry'.groups = registry.groups ++ [(filter,[sessionId])] := by
      rw [groups,groups,topics_eq,List.map_append,List.map_singleton,groupOf,subscribers_eq]
    rw [relation,relation,hg,pairs_concat]

/-- There is no place for a new pair: the entry of the filter is full, or the filter is new and the
table is full, or an entry holds nobody. -/
def Refuses (registry : TopicRegistry T M B) (sessionId : ℕ) (filter : TopicName T) : Prop :=
  (sessionId,filter) ∉ registry.relation ∧
    ((filter ∈ registry.filters ∧ B ≤ (registry.subscribersOf filter).card) ∨
      (filter ∉ registry.filters ∧ M ≤ registry.filters.card) ∨ B = 0)

lemma WellFormed.notMem_filters (h : registry.WellFormed)
    (habsent : ∀ entry ∈ registry.topics.asSlice, entry.topicName ≠ filter) :
    filter ∉ registry.filters := by
  intro hf
  obtain ⟨entry,he,hname⟩ := h.mem_filters.mp hf
  exact habsent entry he hname

/-- A session that the entry of the filter does not list is in no pair with it. -/
lemma WellFormed.notMem_relation (h : registry.WellFormed) {entry : TopicEntry T B}
    (he : entry ∈ registry.topics.asSlice) (hname : entry.topicName = filter)
    (hn : sessionId ∉ entry.subscribers.asSlice) : (sessionId,filter) ∉ registry.relation := by
  intro hmem
  obtain ⟨entry',he',hname',hs'⟩ := mem_relation.mp hmem
  have heq := List.inj_on_of_nodup_map h.distinct he' he (hname'.trans hname.symm)
  rw [heq] at hs'
  exact hn hs'

/-- Subscribing fails exactly when there is no place for the pair, and then changes nothing. -/
lemma WellFormed.subscribe_err_iff (h : registry.WellFormed) (hM : M ≤ 65535) (hB : B ≤ 65535)
    (sessionId : ℕ) (filter : TopicName T) :
    (registry.Refuses sessionId filter → ∃ error,
      registry.subscribe sessionId filter = .err error registry) ∧
    ∀ error registry', registry.subscribe sessionId filter = .err error registry' →
      registry' = registry ∧ registry.Refuses sessionId filter := by
  have hs := subscribe_spec sessionId filter registry
  constructor
  · intro ⟨hnot,hplace⟩
    generalize registry.subscribe sessionId filter = o at hs ⊢
    cases hs with
    | already mem name listed => exact absurd (mem_relation.mpr ⟨_,mem,name,listed⟩) hnot
    | entryFull => exact ⟨_,rfl⟩
    | entryOverflow _ _ _ capacity => omega
    | @joined pre entry post _ _ split name _ room _ _ =>
      have hmem : entry ∈ registry.topics.asSlice := by simp [split]
      have hroom := room.1
      obtain ⟨-,hfull⟩ | ⟨hnew,-⟩ | hzero := hplace
      · rw [← name,h.card_subscribersOf hmem] at hfull
        omega
      · exact absurd (h.mem_filters.mpr ⟨entry,hmem,name⟩) hnew
      · omega
    | tableFull => exact ⟨_,rfl⟩
    | noSubscribers => exact ⟨_,rfl⟩
    | tableOverflow _ _ capacity => omega
    | added absent room capacity _ _ =>
      have hroom := room.1
      obtain ⟨hin,-⟩ | ⟨-,hfull⟩ | hzero := hplace
      · exact absurd hin (h.notMem_filters absent)
      · rw [h.card_filters] at hfull
        omega
      · omega
  · intro error registry' herr
    have hnew : filter ∉ registry.filters → (sessionId,filter) ∉ registry.relation := by
      intro hf hmem
      exact hf (Finset.mem_image.mpr ⟨_,hmem,rfl⟩)
    rw [herr] at hs
    cases hs with
    | entryFull mem name unlisted full =>
      refine ⟨rfl,h.notMem_relation mem name unlisted,.inl ⟨h.mem_filters.mpr ⟨_,mem,name⟩,?_⟩⟩
      rw [← name,h.card_subscribersOf mem]
      exact full
    | tableFull absent full =>
      refine ⟨rfl,hnew (h.notMem_filters absent),.inr (.inl ⟨h.notMem_filters absent,?_⟩)⟩
      rw [h.card_filters]
      exact full
    | noSubscribers absent capacity =>
      exact ⟨rfl,hnew (h.notMem_filters absent),.inr (.inr capacity)⟩

/-- Subscribing again changes nothing, also when there is no place left. -/
lemma WellFormed.subscribe_mem (h : registry.WellFormed) (hB : B ≤ 65535)
    (hmem : (sessionId,filter) ∈ registry.relation) :
    registry.subscribe sessionId filter = .ok () registry := by
  obtain ⟨entry,he,hname,-⟩ := mem_relation.mp hmem
  have hspec := subscribe_spec sessionId filter registry
  generalize registry.subscribe sessionId filter = o at hspec ⊢
  cases hspec with
  | already => rfl
  | entryFull mem name unlisted _ => exact absurd hmem (h.notMem_relation mem name unlisted)
  | entryOverflow _ _ _ capacity => omega
  | @joined pre' entry' post' _ _ split name unlisted _ _ _ =>
    exact absurd hmem (h.notMem_relation (by simp [split]) name unlisted)
  | tableFull absent _ => exact absurd hname (absent entry he)
  | noSubscribers absent _ => exact absurd hname (absent entry he)
  | tableOverflow absent _ _ => exact absurd hname (absent entry he)
  | added absent _ _ _ _ => exact absurd hname (absent entry he)

/-- Every operation of the registry is an operation on its relation. -/
structure Refines (registry : TopicRegistry T M B) : Prop where
  subscribe_ok : ∀ s f registry', registry.subscribe s f = .ok () registry' →
    registry'.relation = insert (s,f) registry.relation
  subscribe_mem : ∀ s f, (s,f) ∈ registry.relation → registry.subscribe s f = .ok () registry
  subscribe_refused : ∀ s f, registry.Refuses s f →
    ∃ error, registry.subscribe s f = .err error registry
  subscribe_err : ∀ s f error registry', registry.subscribe s f = .err error registry' →
    registry' = registry ∧ registry.Refuses s f
  subscribe_returns : ∀ s f, (registry.subscribe s f).Returns
  unsubscribe : ∀ s f, (registry.unsubscribe s f).2.relation = registry.relation.erase (s,f) ∧
    ((registry.unsubscribe s f).1 = true ↔ (s,f) ∈ registry.relation)
  unregisterAll : ∀ s,
    (registry.unregisterAll s).2.relation = registry.relation.filter (fun x => x.1 ≠ s) ∧
    (registry.unregisterAll s).1 = (registry.relation.filter (fun x => x.1 = s)).card
  clearAll : registry.clearAll.relation = ∅
  topicCount : registry.topicCount = registry.filters.card
  subscriptionCount : registry.subscriptionCount = registry.relation.card

lemma WellFormed.relation_unsubscribe (h : registry.WellFormed) (sessionId : ℕ)
    (filter : TopicName T) : (registry.unsubscribe sessionId filter).2.relation =
      registry.relation.erase (sessionId,filter) := by
  rw [relation,h.groups_unsubscribe sessionId filter,pairs_eraseMember h.proper.members]
  ext x
  rw [Finset.mem_filter,Finset.mem_erase,relation,and_comm,beq_iff_eq,ne_eq,Prod.ext_iff]

lemma WellFormed.relation_unregisterAll (h : registry.WellFormed) (sessionId : ℕ) :
    (registry.unregisterAll sessionId).2.relation =
      registry.relation.filter (fun x => x.1 ≠ sessionId) ∧
    (registry.unregisterAll sessionId).1 =
      (registry.relation.filter (fun x => x.1 = sessionId)).card := by
  constructor
  · rw [relation,groups_unregisterAll,pairs_eraseMember h.proper.members]
    apply Finset.filter_congr
    intro x _
    rw [and_iff_left rfl]
  · rw [relation,h.proper.card_member,groups,List.countP_map,TopicRegistry.unregisterAll,
      HeaplessVec.iterMut_fst,List.count_eq_countP,List.countP_map]
    apply List.countP_congr
    intro entry _
    rw [Function.comp_apply,Function.comp_apply,TopicEntry.removeSubscriber_fst,beq_iff_eq,
      List.elem_iff,decide_eq_true_eq,groupOf_snd]

lemma relation_clearAll : registry.clearAll.relation = ∅ := by
  rw [relation,groups,TopicRegistry.clearAll,HeaplessVec.asSlice_clear]
  rfl

lemma WellFormed.refines (h : registry.WellFormed) (hM : M ≤ 65535) (hB : B ≤ 65535) :
    registry.Refines where
  subscribe_ok _ _ _ hok := relation_subscribe hok
  subscribe_mem _ _ hmem := h.subscribe_mem hB hmem
  subscribe_refused s f := (h.subscribe_err_iff hM hB s f).1
  subscribe_err s f := (h.subscribe_err_iff hM hB s f).2
  subscribe_returns _ _ := subscribe_returns hM hB
  unsubscribe s f := ⟨h.relation_unsubscribe s f,h.unsubscribe_fst s f⟩
  unregisterAll := h.relation_unregisterAll
  clearAll := relation_clearAll
  topicCount := h.card_filters.symm
  subscriptionCount := by
    rw [relation,h.proper.card_pairs,groups,List.map_map,TopicRegistry.subscriptionCount]
    congr 1
    apply List.map_congr_left
    intro entry _
    exact entry.subscribers.asSlice_length.symm

/-- Every registry that the operations reach keeps its filters distinct, its entries inhabited and
without repetition and both limits, and its operations act on the relation it stores. -/
theorem registry_refines_relation (hM : M ≤ 65535) (hB : B ≤ 65535)
    (h : Reachable next new registry) : registry.WellFormed ∧ registry.topicCount ≤ M ∧
      registry.EveryEntry (·.length ≤ B) ∧ registry.Refines := by
  have hw := wellFormed_of_reachable h
  refine ⟨hw,registry.topics.length_le,?_,hw.refines hM hB⟩
  intro entry _
  rw [HeaplessVec.asSlice_length]
  exact entry.subscribers.length_le

/-- Sessions 1 and 2 subscribe to `a`, and session 1 leaves. -/
def leaveCalls : List (Call 1) :=
  [.subscribe 1 ((HeaplessString.tryFrom [0x61]).getD .new),
    .subscribe 2 ((HeaplessString.tryFrom [0x61]).getD .new),.unregisterAll 1]

def left : TopicRegistry 1 1 2 := (exec next new leaveCalls).get (by decide)

theorem registry_refines_relation_left : left.WellFormed ∧ left.topicCount ≤ 1 ∧
    left.EveryEntry (·.length ≤ 2) ∧ left.Refines :=
  registry_refines_relation (by decide) (by decide)
    (reachable_of_exec (Option.some_get (by decide)).symm)

end TopicRegistry

end Picobroker
