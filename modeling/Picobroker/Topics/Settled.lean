import Picobroker.Protocol.Vectors
import Picobroker.Topics.Relation

/-! What the topic registry leaves behind its entries, and behind the subscribers of an entry. A slot
that is given up keeps its value, so that registries with the same entries may differ there. -/
namespace Picobroker
open Rust Rust.BoundedList

variable {α β : Type} {T M B : ℕ}

namespace HeaplessVec

section Leftover

variable {v : HeaplessVec α M}

lemma leftover_store {i : ℕ} (h : i < v.length) (x : α) : (v.store i x).leftover = v.leftover := by
  change (v.data.set i x).drop v.length = _
  rw [List.drop_set,if_pos h]
  rfl

lemma leftover_iterMut (body : α → β × α) : (v.iterMut body).2.leftover = v.leftover := by
  change (v.asSlice.map (fun x => (body x).2) ++ v.leftover).drop v.length = _
  apply List.drop_left'
  rw [List.length_map,asSlice_length]

lemma leftover_retain (p : α → Bool) : (v.retain p).leftover =
    v.asSlice.drop (v.asSlice.filter p).length ++ v.leftover := by
  rw [v.retain_eq_retainMut,leftover_retainMut,select_filter]

end Leftover

section Tidy

variable [Inhabited α] {v : HeaplessVec α M}

lemma keeps_tidy_push (item : α) : Proc.Keeps Tidy (push item : Proc (HeaplessVec α M) _ _) := by
  intro v hv
  cases h : push item v with
  | ok u w =>
    rw [Outcome.leaves_ok]
    intro x hx
    rw [leftover_of_push h] at hx
    exact hv x (List.mem_of_mem_drop hx)
  | err e w =>
    obtain ⟨-,hp⟩ | ⟨-,-,hp⟩ | ⟨-,-,u,hp,-⟩ := push_cases v item
    · rw [hp] at h
      cases h
      exact Outcome.leaves_err.mpr hv
    · rw [hp] at h
      cases h
    · rw [hp] at h
      cases h
  | abort why => exact Outcome.leaves_abort _ _

/-- Removing one element leaves the last one behind the others. -/
lemma Tidy.remove (hv : v.Tidy) {index : ℕ} (h : index < v.length)
    (hlast : v.asSlice.getLast? = some default) : (v.remove index h).Tidy := by
  have hne : v.asSlice ≠ [] := by
    intro hnil
    rw [hnil] at hlast
    cases hlast
  rw [List.getLast?_eq_some_getLast hne,Option.some.injEq] at hlast
  intro x hx
  rw [leftover_remove,List.drop_length_sub_one hne,hlast,List.singleton_append,List.mem_cons] at hx
  obtain hx | hx := hx
  · exact hx
  · exact hv x hx

lemma Tidy.removeFirst (hv : v.Tidy) (p : α → Bool)
    (hlast : v.asSlice.any p = true → v.asSlice.getLast? = some default) :
    (v.removeFirst p).2.Tidy := by
  obtain ⟨hn,-⟩ | ⟨i,pre,post,hs,-,-,hp,-⟩ := findFinIdx?_cases p v.asSlice
  · simp only [HeaplessVec.removeFirst,hn]
    exact hv
  · simp only [HeaplessVec.removeFirst,hs]
    apply hv.remove
    apply hlast
    rw [List.any_eq_true]
    exact ⟨_,List.getElem_mem i.isLt,hp⟩

end Tidy

end HeaplessVec

namespace TopicEntry

variable {entry : TopicEntry T B} {sessionId : ℕ}

lemma keeps_tidy_addSubscriber (sessionId : ℕ) :
    Proc.Keeps (fun entry : TopicEntry T B => entry.subscribers.Tidy) (addSubscriber sessionId) := by
  intro entry h
  rw [addSubscriber,Proc.bind_apply,Proc.get_apply,Outcome.andThen_ok]
  split_ifs
  · exact Outcome.leaves_ok.mpr h
  · have hpush := (HeaplessVec.keeps_tidy_push (M := B) sessionId).mapErr
      (fun _ => BrokerError.maxSubscribersPerTopicReached entry.subscribers.len B)
    exact hpush.zoom (I := fun entry : TopicEntry T B => entry.subscribers.Tidy) (fun _ hs => hs)
      (fun _ _ _ ht => ht) entry h

lemma tidy_removeSubscriber (h : entry.subscribers.Tidy)
    (hlast : sessionId ∈ entry.subscribers.asSlice → entry.subscribers.asSlice.getLast? = some 0) :
    (entry.removeSubscriber sessionId).2.subscribers.Tidy := by
  apply h.removeFirst
  intro hany
  apply hlast
  obtain ⟨x,hx,heq⟩ := List.any_eq_true.mp hany
  rwa [← beq_iff_eq.mp heq]

end TopicEntry

namespace TopicRegistry

variable {registry registry' : TopicRegistry T M B} {topics : HeaplessVec (TopicEntry T B) M}
  {sessionId : ℕ} {filter : TopicName T}

/-- Nothing is left behind the entries, nor behind the subscribers of an entry. -/
structure Tidy (registry : TopicRegistry T M B) : Prop where
  topics : registry.topics.Tidy
  subscribers : ∀ entry ∈ registry.topics.asSlice, entry.subscribers.Tidy

lemma tidy_new : (new : TopicRegistry T M B).Tidy where
  topics := HeaplessVec.tidy_new
  subscribers := by
    intro entry he
    cases he

lemma entry_eq_of_groupOf {entry entry' : TopicEntry T B} (h : entry.subscribers.Tidy)
    (h' : entry'.subscribers.Tidy) (hg : groupOf entry = groupOf entry') : entry = entry' := by
  obtain ⟨hname,hsubscribers⟩ := Prod.ext_iff.mp hg
  have hs := (HeaplessVec.eq_iff_asSlice h h').mpr hsubscribers
  cases entry
  cases entry'
  rw [TopicEntry.mk.injEq]
  exact ⟨hname,hs⟩

lemma Tidy.eq_iff_groups (h : registry.Tidy) (h' : registry'.Tidy) :
    registry = registry' ↔ registry.groups = registry'.groups := by
  constructor
  · intro heq
    rw [heq]
  · intro hg
    have htopics : registry.topics.asSlice = registry'.topics.asSlice := by
      apply List.ext_getElem
      · simpa [groups] using congrArg List.length hg
      · intro i hi hi'
        apply entry_eq_of_groupOf
        · exact h.subscribers _ (List.getElem_mem hi)
        · exact h'.subscribers _ (List.getElem_mem hi')
        · have hget := List.getElem_of_eq hg (by simpa [groups] using hi)
          simpa only [groups,List.getElem_map] using hget
    cases registry
    cases registry'
    congr 1
    exact (HeaplessVec.eq_iff_asSlice h.topics h'.topics).mpr htopics

/-- An entry is replaced by a tidy one. -/
lemma Tidy.store (h : registry.Tidy) {pre post : List (TopicEntry T B)} {entry entry' : TopicEntry T B}
    (hsplit : registry.topics.asSlice = pre ++ entry::post) (he : entry'.subscribers.Tidy) :
    Tidy ⟨registry.topics.store pre.length entry'⟩ := by
  have hlt : pre.length < registry.topics.length := by
    rw [← registry.topics.asSlice_length,hsplit,List.length_append,List.length_cons]
    omega
  constructor
  · intro x hx
    rw [HeaplessVec.leftover_store hlt] at hx
    exact h.topics x hx
  · intro e hmem
    rw [HeaplessVec.asSlice_store] at hmem
    obtain hmem | rfl := List.mem_or_eq_of_mem_set hmem
    · exact h.subscribers e hmem
    · exact he

section Subscribe

lemma keeps_tidy_push {entry : TopicEntry T B} (he : entry.subscribers.Tidy) :
    Proc.Keeps (fun topics : HeaplessVec (TopicEntry T B) M => Tidy ⟨topics⟩)
      (HeaplessVec.push entry) := by
  intro topics h
  have hkeep := HeaplessVec.keeps_tidy_push entry topics h.topics
  obtain ⟨-,hp⟩ | ⟨-,-,hp⟩ | ⟨-,-,topics',hp,ht⟩ := HeaplessVec.push_cases topics entry
  · rw [hp]
    exact Outcome.leaves_err.mpr h
  · rw [hp]
    exact Outcome.leaves_abort _ _
  · rw [hp,Outcome.leaves_ok] at hkeep ⊢
    refine ⟨hkeep,?_⟩
    intro e hmem
    rw [ht,List.mem_append,List.mem_singleton] at hmem
    obtain hmem | rfl := hmem
    · exact h.subscribers e hmem
    · exact he

lemma tidy_addEntry (h : Tidy ⟨topics⟩) :
    (addEntry sessionId filter topics).Leaves (fun topics => Tidy ⟨topics⟩) := by
  have hentry := TopicEntry.keeps_tidy_addSubscriber sessionId (TopicEntry.new filter : TopicEntry T B)
    HeaplessVec.tidy_new
  rw [addEntry,Proc.bind_apply,Proc.get_apply,Outcome.andThen_ok,Proc.bind_apply]
  by_cases hM : M ≤ topics.len
  · rw [Proc.failIf_pos hM]
    exact Outcome.leaves_err.mpr h
  · rw [Proc.failIf_neg hM,Outcome.andThen_ok,Proc.bind_apply]
    cases ha : TopicEntry.addSubscriber sessionId (TopicEntry.new filter : TopicEntry T B) with
    | ok u entry =>
      rw [ha,Outcome.leaves_ok] at hentry
      rw [Proc.onLocal_ok ha,Outcome.andThen_ok]
      exact (keeps_tidy_push hentry).mapErr _ topics h
    | err e entry =>
      rw [Proc.onLocal_err ha]
      exact Outcome.leaves_err.mpr h
    | abort why =>
      simp only [Proc.onLocal,ha]
      exact Outcome.leaves_abort _ _

lemma tidy_subscribe (h : registry.Tidy) (sessionId : ℕ) (filter : TopicName T) :
    (subscribe sessionId filter registry).Leaves Tidy := by
  rw [subscribe,Proc.zoom_apply]
  apply Outcome.Leaves.mapState (I := fun topics => Tidy ⟨topics⟩) _ (fun _ ht => ht)
  obtain ⟨-,hf⟩ | ⟨pre,entry,post,hv,-,-,-,hset,hf⟩ := HeaplessVec.findMut_cases
    (·.topicName == filter) (TopicEntry.addSubscriber sessionId) (addEntry sessionId filter)
    registry.topics
  · rw [hf]
    exact tidy_addEntry h
  · have hmem : entry ∈ registry.topics.asSlice := by simp [hv]
    have hadd := TopicEntry.keeps_tidy_addSubscriber sessionId entry (h.subscribers entry hmem)
    rw [hf]
    exact hadd.mapState (fun entry' he => h.store hv he)

end Subscribe

section Remove

/-- The session leaves the named filters without a trace: the last subscriber of an entry, whose slot is
given up, has the number 0, and an entry that becomes empty is the last one, of the empty filter. -/
def LeavesDefaults (registry : TopicRegistry T M B) (sessionId : ℕ) (named : TopicName T → Prop) :
    Prop :=
  ∀ pre entry post, registry.topics.asSlice = pre ++ entry::post → named entry.topicName →
    sessionId ∈ entry.subscribers.asSlice → entry.subscribers.asSlice.getLast? = some 0 ∧
      (entry.subscribers.asSlice = [sessionId] → post = [] ∧ entry.topicName = default)

/-- The call leaves nothing but defaults in the slots that it gives up. -/
def Settles (registry : TopicRegistry T M B) : Call T → Prop
  | .subscribe _ _ => True
  | .unsubscribe sessionId filter => registry.LeavesDefaults sessionId (· = filter)
  | .unregisterAll sessionId => registry.LeavesDefaults sessionId (fun _ => True)
  | .clearAll => ∀ entry ∈ registry.topics.asSlice, entry = default

variable {entry : TopicEntry T B}

/-- What the session leaves of an entry that settles. -/
lemma tidy_left (h : registry.Tidy) {named : TopicName T → Prop}
    (hs : registry.LeavesDefaults sessionId named) (he : entry ∈ registry.topics.asSlice)
    (hn : named entry.topicName) : (entry.removeSubscriber sessionId).2.subscribers.Tidy := by
  apply TopicEntry.tidy_removeSubscriber (h.subscribers entry he)
  intro hmem
  obtain ⟨pre,post,hsplit⟩ := List.append_of_mem he
  exact (hs pre entry post hsplit hn hmem).1

/-- An entry that settles and becomes empty is the last one, and becomes the default. -/
lemma default_left (h : registry.Tidy) (hw : registry.WellFormed) {named : TopicName T → Prop}
    (hs : registry.LeavesDefaults sessionId named) {pre post : List (TopicEntry T B)}
    (hsplit : registry.topics.asSlice = pre ++ entry::post) (hn : named entry.topicName)
    (hempty : (entry.removeSubscriber sessionId).2.isEmpty = true) :
    post = [] ∧ (entry.removeSubscriber sessionId).2 = default := by
  have he : entry ∈ registry.topics.asSlice := by simp [hsplit]
  rw [isEmpty_iff,TopicEntry.removeSubscriber_subscribers] at hempty
  have hone : entry.subscribers.asSlice = [sessionId] :=
    (List.erase_eq_nil_iff.mp hempty).resolve_left (hw.nonempty entry he)
  have hmem : sessionId ∈ entry.subscribers.asSlice := by simp [hone]
  obtain ⟨hpost,hname⟩ := (hs pre entry post hsplit hn hmem).2 hone
  refine ⟨hpost,?_⟩
  apply entry_eq_of_groupOf (tidy_left h hs he hn) HeaplessVec.tidy_new
  rw [groupOf_removeSubscriber,hempty,hname]
  rfl

lemma tidy_unsubscribe (h : registry.Tidy) (hw : registry.WellFormed)
    (hs : registry.LeavesDefaults sessionId (· = filter)) :
    (registry.unsubscribe sessionId filter).2.Tidy := by
  obtain ⟨hn,-⟩ | ⟨i,pre,post,hidx,hsplit,hi,hp,-⟩ :=
    findFinIdx?_cases (·.topicName == filter) registry.topics.asSlice
  · simp only [TopicRegistry.unsubscribe,hn]
    exact h
  · have hname : registry.topics.asSlice[i].topicName = filter := by simpa using hp
    have hleft := tidy_left h hs (List.getElem_mem i.isLt) hname
    have hstored := h.store hsplit hleft
    rw [← hi] at hstored
    simp only [TopicRegistry.unsubscribe,hidx]
    split_ifs with hempty
    · -- the entry stands last, so the slot that `remove` gives up holds it, and it is the default
      obtain ⟨hpost,hdefault⟩ := default_left h hw hs hsplit hname hempty
      have hlast : (registry.topics.store i
          (registry.topics.asSlice[i].removeSubscriber sessionId).2).asSlice.getLast? =
            some default := by
        rw [HeaplessVec.asSlice_store,hdefault,hi,hsplit,hpost,List.set_append_right _ _ le_rfl]
        simp
      have hlt : i.val < registry.topics.length := i.isLt.trans_eq registry.topics.asSlice_length
      constructor
      · exact hstored.topics.remove hlt hlast
      · intro e he
        rw [HeaplessVec.asSlice_remove] at he
        exact hstored.subscribers e (List.mem_of_mem_eraseIdx he)
    · exact hstored

/-- Where a list rejects elements at its end only, they are what is left of it behind as many as it
keeps. -/
lemma mem_drop_length_filter {p : α → Bool} {l : List α} {x : α}
    (h : ∀ pre y post, l = pre ++ y::post → p y = false → post = [])
    (hx : x ∈ l.drop (l.filter p).length) : x ∈ l ∧ p x = false := by
  induction l with
  | nil => cases hx
  | cons y l ih =>
    have hl : ∀ pre z post, l = pre ++ z::post → p z = false → post = [] := by
      intro pre z post hsplit hz
      exact h (y::pre) z post (by rw [hsplit,List.cons_append]) hz
    cases hy : p y with
    | true =>
      rw [List.filter_cons_of_pos hy,List.length_cons,List.drop_succ_cons] at hx
      obtain ⟨hmem,hp⟩ := ih hl hx
      exact ⟨List.mem_cons_of_mem y hmem,hp⟩
    | false =>
      have hnil : l = [] := h [] y l rfl hy
      rw [hnil,List.filter_cons_of_neg (by simp [hy])] at hx
      rw [List.mem_singleton.mp hx]
      exact ⟨List.mem_cons_self,hy⟩

lemma tidy_unregisterAll (h : registry.Tidy) (hw : registry.WellFormed)
    (hs : registry.LeavesDefaults sessionId (fun _ => True)) :
    (registry.unregisterAll sessionId).2.Tidy := by
  have hsplit : ∀ pre e post, registry.topics.asSlice.map (fun e => (e.removeSubscriber sessionId).2) =
      pre ++ e::post → (!e.isEmpty) = false → post = [] ∧ e = default := by
    intro pre e post hmap hempty
    obtain ⟨before,rest,hl,-,hrest⟩ := List.map_eq_append_iff.mp hmap
    obtain ⟨entry,after,rfl,rfl,rfl⟩ := List.map_eq_cons_iff.mp hrest
    rw [Bool.not_eq_false'] at hempty
    obtain ⟨hpost,hdefault⟩ := default_left h hw hs hl trivial hempty
    rw [hpost]
    exact ⟨rfl,hdefault⟩
  constructor
  · intro x hx
    simp only [TopicRegistry.unregisterAll] at hx
    rw [HeaplessVec.leftover_retain,HeaplessVec.leftover_iterMut,List.mem_append,
      HeaplessVec.asSlice_iterMut] at hx
    obtain hx | hx := hx
    · obtain ⟨hmem,hempty⟩ := mem_drop_length_filter (fun pre e post he hp => (hsplit pre e post he hp).1) hx
      obtain ⟨pre,post,he⟩ := List.append_of_mem hmem
      exact (hsplit pre x post he hempty).2
    · exact h.topics x hx
  · intro e he
    rw [unregisterAll_asSlice] at he
    obtain ⟨entry,hentry,rfl⟩ := List.mem_map.mp (List.mem_of_mem_filter he)
    exact tidy_left h hs hentry trivial

lemma tidy_clearAll (h : registry.Tidy) (hs : ∀ entry ∈ registry.topics.asSlice, entry = default) :
    registry.clearAll.Tidy := by
  constructor
  · intro x hx
    simp only [TopicRegistry.clearAll] at hx
    rw [HeaplessVec.leftover_clear,List.mem_append] at hx
    obtain hx | hx := hx
    · exact hs x hx
    · exact h.topics x hx
  · intro e he
    rw [TopicRegistry.clearAll,HeaplessVec.asSlice_clear] at he
    cases he

lemma Tidy.next {call : Call T} (h : registry.Tidy) (hw : registry.WellFormed)
    (hs : registry.Settles call) (hn : registry.next call = some registry') : registry'.Tidy := by
  cases call with
  | subscribe sessionId filter => exact tidy_subscribe h sessionId filter registry' hn
  | unsubscribe sessionId filter =>
    cases hn
    exact tidy_unsubscribe h hw hs
  | unregisterAll sessionId =>
    cases hn
    exact tidy_unregisterAll h hw hs
  | clearAll =>
    cases hn
    exact tidy_clearAll h hs

/-- Reached from a new registry by calls that settle. -/
def ReachedSettled (registry : TopicRegistry T M B) : Prop :=
  ∃ h, Run next new h registry ∧ ∀ e ∈ h, e.1.Settles e.2

lemma ReachedSettled.tidy (h : registry.ReachedSettled) : registry.Tidy := by
  obtain ⟨calls,hr,hs⟩ := h
  exact (hr.invariant_of_mem (I := fun registry => registry.WellFormed ∧ registry.Tidy)
    (fun _ _ _ hI hok hn => ⟨hI.1.next hn,hI.2.next hI.1 hok hn⟩) ⟨wellFormed_new,tidy_new⟩ hs).2

end Remove

end TopicRegistry

end Picobroker
