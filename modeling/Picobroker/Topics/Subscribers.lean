import Picobroker.Topics.Registry

/-! Whom `get_subscribers` returns. Its result has the capacity of a single entry, while it collects
from every entry that matches. -/
namespace Picobroker
open Rust

namespace TopicRegistry

variable {T M B : ℕ}

/-- The operations that change a registry. -/
inductive Call (T : ℕ)
  | subscribe (sessionId : ℕ) (filter : TopicName T)
  | unsubscribe (sessionId : ℕ) (filter : TopicName T)
  | unregisterAll (sessionId : ℕ)
  | clearAll

/-- The registry after a call, unless the call panics. -/
def next (registry : TopicRegistry T M B) : Call T → Option (TopicRegistry T M B)
  | .subscribe sessionId filter => (registry.subscribe sessionId filter).state?
  | .unsubscribe sessionId filter => some (registry.unsubscribe sessionId filter).2
  | .unregisterAll sessionId => some (registry.unregisterAll sessionId).2
  | .clearAll => some registry.clearAll

/-- The subscribers of the entries that match the topic, entry by entry. -/
def matching (registry : TopicRegistry T M B) (topic : TopicName T) : List ℕ :=
  (registry.topics.asSlice.filter
    (fun entry => topicMatches topic.asStr entry.topicName.asStr)).flatMap (·.subscribers.asSlice)

/-- The session subscribes to at least one filter that matches the topic. -/
def Matched (registry : TopicRegistry T M B) (topic : TopicName T) (sessionId : ℕ) : Prop :=
  ∃ entry ∈ registry.topics.asSlice, topicMatches topic.asStr entry.topicName.asStr = true ∧
    sessionId ∈ entry.subscribers.asSlice

instance (registry : TopicRegistry T M B) (topic : TopicName T) (sessionId : ℕ) :
    Decidable (registry.Matched topic sessionId) := inferInstanceAs (Decidable (∃ _ ∈ _, _))

lemma mem_matching {registry : TopicRegistry T M B} {topic : TopicName T} {sessionId : ℕ} :
    sessionId ∈ registry.matching topic ↔ registry.Matched topic sessionId := by
  simp only [matching,Matched,List.mem_flatMap,List.mem_filter,and_assoc]

lemma forEach_collectEntry (topic : Bytes) (entries : List (TopicEntry T B))
    (subscribers : HeaplessVec ℕ B) :
    Proc.forEach (collectEntry topic) entries subscribers =
      Proc.forEach collectSubscriber ((entries.filter
        (fun entry => topicMatches topic entry.topicName.asStr)).flatMap (·.subscribers.asSlice))
        subscribers := by
  induction entries generalizing subscribers with
  | nil => rfl
  | cons entry entries ih =>
    rw [Proc.forEach_cons,List.filter_cons,collectEntry]
    split_ifs with h
    · rw [List.flatMap_cons,Proc.forEach_append]
      cases Proc.forEach collectSubscriber entry.subscribers.asSlice subscribers with
      | ok u t => exact ih t
      | err e t => rfl
      | abort w => rfl
    · exact ih subscribers

/-- One more subscriber: it is appended unless it is there or the vector is full. -/
lemma collectSubscriber_cases {seen : List ℕ} {subscribers : HeaplessVec ℕ B}
    (hv : subscribers.asSlice = seen.eraseDups.take B) (x : ℕ) :
    (∃ subscribers', collectSubscriber x subscribers = .ok () subscribers' ∧
      subscribers'.asSlice = (seen ++ [x]).eraseDups.take B) ∨
    (collectSubscriber x subscribers = .abort .panic ∧ 65535 < B ∧
      65535 < (seen ++ [x]).eraseDups.length) := by
  have hlen : subscribers.length = min B seen.eraseDups.length := by
    rw [← subscribers.asSlice_length,hv,List.length_take]
  -- below the capacity everything seen is there
  have hall : subscribers.length < B → seen.eraseDups.take B = seen.eraseDups := by
    intro h
    apply List.take_of_length_le
    omega
  rw [eraseDups_concat]
  by_cases hx : x ∈ subscribers.asSlice
  · have hseen : x ∈ seen := by
      rw [hv] at hx
      exact List.mem_eraseDups.mp (List.mem_of_mem_take hx)
    rw [if_pos hseen]
    exact .inl ⟨subscribers,by simp [collectSubscriber,hx],hv⟩
  have hnew : subscribers.length < B → x ∉ seen := by
    intro h hs
    apply hx
    rw [hv,hall h]
    exact List.mem_eraseDups.mpr hs
  obtain ⟨hB,hp⟩ | ⟨hB,hl,hp⟩ | ⟨hB,-,w,hp,hw⟩ := HeaplessVec.push_cases subscribers x
  · refine .inl ⟨subscribers,by simp [collectSubscriber,hx,Proc.discard,hp],?_⟩
    split_ifs with hs
    · exact hv
    · rw [List.take_append_of_le_length (by omega)]
      exact hv
  · refine .inr ⟨by simp [collectSubscriber,hx,Proc.discard,hp],by omega,?_⟩
    rw [if_neg (hnew hB),List.length_append,List.length_singleton]
    omega
  · refine .inl ⟨w,by simp [collectSubscriber,hx,Proc.discard,hp],?_⟩
    rw [hw,hv,hall hB,if_neg (hnew hB),List.take_of_length_le]
    rw [List.length_append,List.length_singleton]
    omega

lemma forEach_collectSubscriber_cases (xs : List ℕ) {seen : List ℕ} {subscribers : HeaplessVec ℕ B}
    (hv : subscribers.asSlice = seen.eraseDups.take B) :
    (∃ subscribers', Proc.forEach collectSubscriber xs subscribers = .ok () subscribers' ∧
      subscribers'.asSlice = (seen ++ xs).eraseDups.take B) ∨
    (Proc.forEach collectSubscriber xs subscribers = .abort .panic ∧ 65535 < B ∧
      65535 < (seen ++ xs).eraseDups.length) := by
  induction xs generalizing seen subscribers with
  | nil => exact .inl ⟨subscribers,rfl,by rw [List.append_nil,hv]⟩
  | cons x xs ih =>
    rw [Proc.forEach_cons,List.append_cons]
    obtain ⟨w,hc,hw⟩ | ⟨hc,hB,hl⟩ := collectSubscriber_cases hv x
    · rw [hc]
      exact ih hw
    · rw [hc]
      refine .inr ⟨rfl,hB,?_⟩
      rw [List.eraseDups_append,List.length_append]
      omega

/-- The result is the distinct matching subscribers, cut off at the capacity of one entry. There is
none when there are more of them than a length can count. -/
lemma getSubscribers_cases (registry : TopicRegistry T M B) (topic : TopicName T) :
    (∃ subscribers, registry.getSubscribers topic = some subscribers ∧
      subscribers.asSlice = (registry.matching topic).eraseDups.take B) ∨
    (registry.getSubscribers topic = none ∧ 65535 < B ∧
      65535 < (registry.matching topic).eraseDups.length) := by
  have hnew : (HeaplessVec.new : HeaplessVec ℕ B).asSlice = ([] : List ℕ).eraseDups.take B := by simp
  rw [getSubscribers,forEach_collectEntry]
  obtain ⟨w,hc,hw⟩ | ⟨hc,hB,hl⟩ := forEach_collectSubscriber_cases (registry.matching topic) hnew
  · exact .inl ⟨w,congrArg Outcome.state? hc,hw⟩
  · exact .inr ⟨congrArg Outcome.state? hc,hB,hl⟩

lemma getSubscribers_nodup {registry : TopicRegistry T M B} {topic : TopicName T}
    {subscribers : HeaplessVec ℕ B} (h : registry.getSubscribers topic = some subscribers) :
    subscribers.asSlice.Nodup := by
  obtain ⟨w,hc,hw⟩ | ⟨hc,-⟩ := registry.getSubscribers_cases topic
  · rw [hc] at h
    cases h
    rw [hw]
    exact (nodup_eraseDups _).sublist (List.take_sublist _ _)
  · rw [hc] at h
    cases h

lemma matched_of_mem_getSubscribers {registry : TopicRegistry T M B} {topic : TopicName T}
    {subscribers : HeaplessVec ℕ B} (h : registry.getSubscribers topic = some subscribers) {s : ℕ}
    (hs : s ∈ subscribers.asSlice) : registry.Matched topic s := by
  obtain ⟨w,hc,hw⟩ | ⟨hc,-⟩ := registry.getSubscribers_cases topic
  · rw [hc] at h
    cases h
    rw [hw] at hs
    exact mem_matching.mp (List.mem_eraseDups.mp (List.mem_of_mem_take hs))
  · rw [hc] at h
    cases h

/-- While the distinct matching sessions fit one entry, the result holds all of them. -/
lemma mem_getSubscribers_iff {registry : TopicRegistry T M B} {topic : TopicName T}
    {subscribers : HeaplessVec ℕ B} (h : registry.getSubscribers topic = some subscribers)
    (hle : (registry.matching topic).eraseDups.length ≤ B) (s : ℕ) :
    s ∈ subscribers.asSlice ↔ registry.Matched topic s := by
  obtain ⟨w,hc,hw⟩ | ⟨hc,-⟩ := registry.getSubscribers_cases topic
  · rw [hc] at h
    cases h
    rw [hw,List.take_of_length_le hle,List.mem_eraseDups]
    exact mem_matching
  · rw [hc] at h
    cases h

/-- The result has no repetition and holds exactly the sessions with a matching filter. -/
def Complete (registry : TopicRegistry T M B) (topic : TopicName T) : Prop :=
  ∃ subscribers, registry.getSubscribers topic = some subscribers ∧ subscribers.asSlice.Nodup ∧
    ∀ s, s ∈ subscribers.asSlice ↔ registry.Matched topic s

/-- Nobody is lost exactly when the distinct matching sessions fit one entry. -/
theorem getSubscribers_complete_iff (registry : TopicRegistry T M B) (topic : TopicName T) :
    registry.Complete topic ↔ (registry.matching topic).toFinset.card ≤ min B 65535 := by
  rw [← length_eraseDups]
  obtain ⟨w,hc,hw⟩ | ⟨hc,hB,hl⟩ := registry.getSubscribers_cases topic
  · constructor
    · intro ⟨v,hv,_,hmem⟩
      rw [hc] at hv
      cases hv
      have hle : (registry.matching topic).eraseDups.length ≤ B := by
        rw [← mem_take_iff_length_le (nodup_eraseDups _)]
        intro s hs
        rw [← hw,hmem,← mem_matching]
        exact List.mem_eraseDups.mp hs
      have hlen : w.length = (registry.matching topic).eraseDups.length := by
        rw [← w.asSlice_length,hw,List.take_of_length_le hle]
      have hlt := w.length_lt
      omega
    · intro hle
      exact ⟨w,hc,getSubscribers_nodup hc,mem_getSubscribers_iff hc (by omega)⟩
  · constructor
    · intro ⟨v,hv,_⟩
      rw [hc] at hv
      cases hv
    · intro hle
      omega

/-- Session 1 subscribes to `a` and session 2 to `#`. One subscriber fits an entry, so of the two
that a message on `a` has to reach the second is dropped. -/
theorem getSubscribers_loses_subscriber :
    ¬ ∀ (T M B : ℕ) (registry : TopicRegistry T M B), Reachable next new registry →
      ∀ topic, registry.Complete topic := by
  intro h
  let a : TopicName 1 := ⟨1,[0x61],rfl,le_rfl,by decide⟩
  let hash : TopicName 1 := ⟨1,[0x23],rfl,le_rfl,by decide⟩
  let one : TopicRegistry 1 2 1 :=
    ⟨⟨1,[⟨a,⟨1,[1],rfl,le_rfl,by decide⟩⟩,default],rfl,by decide,by decide⟩⟩
  let both : TopicRegistry 1 2 1 :=
    ⟨⟨2,[⟨a,⟨1,[1],rfl,le_rfl,by decide⟩⟩,⟨hash,⟨1,[2],rfl,le_rfl,by decide⟩⟩],rfl,le_rfl,by decide⟩⟩
  have h₁ : next (new : TopicRegistry 1 2 1) (.subscribe 1 a) = some one := by decide
  have h₂ : next one (.subscribe 2 hash) = some both := by decide
  obtain ⟨v,hv,-,hmem⟩ := h 1 2 1 both (((Reachable.refl _ _).step h₁).step h₂) a
  have hget : both.getSubscribers a = some ⟨1,[1],rfl,le_rfl,by decide⟩ := by decide
  rw [hget] at hv
  cases hv
  have h2 := (hmem 2).mpr (by decide)
  revert h2
  decide

end TopicRegistry

end Picobroker
