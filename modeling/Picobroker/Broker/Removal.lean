import Picobroker.Broker.Invariant
import Picobroker.Topics.Relation

/-! Removing a session erases it from both registries and nothing else. -/
namespace Picobroker
open Rust

variable {T P Q S M B : ℕ}

namespace PicoBroker

/-- Two brokers with the same sessions, and with the same filters and subscribers, in the same
order. -/
structure SameVisible (broker broker' : PicoBroker T P Q S M B) : Prop where
  sessions : broker.sessions.all = broker'.sessions.all
  topics : broker.topics.groups = broker'.topics.groups

/-- What is left after a session was removed, what removing again does, and what a session of the same
id finds. -/
structure Erases (broker : PicoBroker T P Q S M B) (s : ℕ) : Prop where
  returned : (broker.removeSession s).1 = true ↔ s ∈ broker.sessions.ids
  unregistered : s ∉ (broker.removeSession s).2.sessions.ids
  unlisted : ∀ entry ∈ (broker.removeSession s).2.topics.topics.asSlice,
    s ∉ entry.subscribers.asSlice
  sessions : (broker.removeSession s).2.sessions.all =
    broker.sessions.all.filter (·.sessionId != s)
  subscriptions : (broker.removeSession s).2.topics.relation =
    broker.topics.relation.filter (fun x => x.1 ≠ s)
  entries : ∀ f, (∃ entry ∈ (broker.removeSession s).2.topics.topics.asSlice, entry.topicName = f) ↔
    ∃ t, t ≠ s ∧ (t,f) ∈ broker.topics.relation
  again : ((broker.removeSession s).2.removeSession s).1 = false ∧
    SameVisible ((broker.removeSession s).2.removeSession s).2 (broker.removeSession s).2
  commutes : ∀ t, SameVisible ((broker.removeSession s).2.removeSession t).2
    ((broker.removeSession t).2.removeSession s).2
  registers : s ∈ broker.sessions.ids → ∀ keepAliveSecs currentTime,
    ∃ broker', registerNewSession s keepAliveSecs currentTime (broker.removeSession s).2 =
      .ok () broker'
  registered : ∀ keepAliveSecs currentTime broker',
    registerNewSession s keepAliveSecs currentTime (broker.removeSession s).2 = .ok () broker' →
    (∃ session, broker'.sessions.all = (broker.removeSession s).2.sessions.all ++ [session] ∧
      session.sessionId = s ∧ session.clientId = none ∧ session.state = .connecting ∧
      session.rxQueue.asSlice = [] ∧ session.txQueue.asSlice = []) ∧
    ∀ f, (s,f) ∉ broker'.topics.relation

variable {broker : PicoBroker T P Q S M B} {m : SessionMap T P} {s t : ℕ}

lemma Consistent.all_removeSession (h : broker.Consistent m) (s : ℕ) :
    (broker.removeSession s).2.sessions.all = broker.sessions.all.filter (·.sessionId != s) :=
  (SessionRegistry.all_removeSession h.shows.wellFormed s).1

lemma groups_removeSession (broker : PicoBroker T P Q S M B) (s : ℕ) :
    (broker.removeSession s).2.topics.groups =
      eraseMember broker.topics.groups s (fun _ => true) :=
  TopicRegistry.groups_unregisterAll s broker.topics

/-- A session that is not there is removed without a change. -/
lemma Consistent.removeSession_absent (h : broker.Consistent m) (hs : s ∉ m.ids) :
    (broker.removeSession s).1 = false ∧ SameVisible (broker.removeSession s).2 broker := by
  refine ⟨?_,?_,?_⟩
  · rw [PicoBroker.removeSession]
    exact (SessionRegistry.removeSession_fst h.shows s).trans (decide_eq_false hs)
  · rw [h.all_removeSession,List.filter_eq_self]
    intro session hsession
    rw [bne_iff_ne]
    intro he
    apply hs
    rw [h.shows.ids_eq,← he]
    exact List.mem_map_of_mem hsession
  · rw [groups_removeSession]
    apply eraseMember_eq_self
    · intro e he _ hmem
      obtain ⟨entry,hentry,rfl⟩ := List.mem_map.mp he
      exact hs (h.registered entry hentry s hmem)
    · exact h.topics.proper.nonempty

lemma Consistent.removeSession_comm (h : broker.Consistent m) (s t : ℕ) :
    SameVisible ((broker.removeSession s).2.removeSession t).2
      ((broker.removeSession t).2.removeSession s).2 := by
  constructor
  · rw [(h.removeSession s).all_removeSession,(h.removeSession t).all_removeSession,
      h.all_removeSession,h.all_removeSession,List.filter_filter,List.filter_filter]
    congr 1
    funext session
    exact Bool.and_comm _ _
  · rw [groups_removeSession,groups_removeSession,groups_removeSession,groups_removeSession,
      eraseMember_comm]

/-- A new session is the last one, and the topics do not know it. -/
lemma Consistent.registerNewSession_ok (h : broker.Consistent m) {keepAliveSecs : UInt16}
    {currentTime : ℕ} {broker' : PicoBroker T P Q S M B}
    (hok : PicoBroker.registerNewSession s keepAliveSecs currentTime broker = .ok () broker') :
    broker'.sessions.all =
      broker.sessions.all ++ [Session.new s keepAliveSecs currentTime] ∧
    ∀ f, (s,f) ∉ broker'.topics.relation := by
  have hs := SessionRegistry.registerNewSession_spec s keepAliveSecs currentTime broker.sessions
  rw [PicoBroker.registerNewSession,onSessions,Proc.zoom_apply] at hok
  generalize SessionRegistry.registerNewSession s keepAliveSecs currentTime broker.sessions = o
    at hs hok
  cases hs with
  | full => cases hok
  | «exists» => cases hok
  | overflow => cases hok
  | registered fresh all_eq _ =>
    cases hok
    refine ⟨all_eq,?_⟩
    intro f hf
    obtain ⟨entry,he,-,hmem⟩ := TopicRegistry.mem_relation.mp hf
    apply fresh
    rw [← h.shows.ids_eq]
    exact h.registered entry he s hmem

/-- The place of a removed session is free. -/
lemma Consistent.registerNewSession_removed (h : broker.Consistent m) (hs : s ∈ m.ids)
    (keepAliveSecs : UInt16) (currentTime : ℕ) :
    ∃ broker', PicoBroker.registerNewSession s keepAliveSecs currentTime (broker.removeSession s).2 =
      .ok () broker' := by
  have hr := h.removeSession s
  have hfresh : s ∉ (m.remove s).ids := by
    rw [SessionMap.remove_ids,List.mem_filter]
    simp
  have hlen : (m.remove s).ids.length < m.ids.length := by
    rw [SessionMap.remove_ids]
    apply List.length_filter_lt_length_iff_exists.mpr
    exact ⟨s,hs,by simp⟩
  have hle := h.shows.length_le
  have hlt := h.shows.length_lt
  rw [PicoBroker.registerNewSession,onSessions,Proc.zoom_apply]
  have hj := SessionRegistry.registerNewSession_joins hr.shows s keepAliveSecs currentTime
  generalize SessionRegistry.registerNewSession s keepAliveSecs currentTime
    (broker.removeSession s).2.sessions = o at hj ⊢
  cases hj with
  | full full => omega
  | «exists» mem => exact absurd mem hfresh
  | overflow length _ => omega
  | joined => exact ⟨_,rfl⟩

/-- Removing a session erases exactly this session, in every state that the operations reach. -/
theorem removeSession_erases (h : Reachable next new broker) (s : ℕ) : broker.Erases s := by
  have hc := consistent_of_reachable h
  have hr := hc.removeSession s
  have hunregistered : s ∉ (broker.removeSession s).2.sessions.ids := by
    rw [← hr.shows.ids_eq,SessionMap.remove_ids,List.mem_filter]
    simp
  have hrelation := (hc.topics.relation_unregisterAll s).1
  exact {
    returned := by
      rw [← hc.shows.ids_eq]
      exact (Bool.eq_iff_iff.mp (SessionRegistry.removeSession_fst hc.shows s)).trans
        decide_eq_true_iff
    unregistered := hunregistered
    unlisted := by
      intro entry he hmem
      have hreg := hr.registered entry he s hmem
      rw [hr.shows.ids_eq] at hreg
      exact hunregistered hreg
    sessions := hc.all_removeSession s
    subscriptions := hrelation
    entries := by
      intro f
      rw [← hr.topics.mem_filters,TopicRegistry.filters,Finset.mem_image]
      constructor
      · rintro ⟨⟨t,f'⟩,ht,hf⟩
        subst hf
        have ht' : (t,f') ∈ broker.topics.relation.filter (fun x => x.1 ≠ s) := hrelation ▸ ht
        rw [Finset.mem_filter] at ht'
        exact ⟨t,ht'.2,ht'.1⟩
      · rintro ⟨t,hts,ht⟩
        refine ⟨(t,f),?_,rfl⟩
        have ht' : (t,f) ∈ broker.topics.relation.filter (fun x => x.1 ≠ s) :=
          Finset.mem_filter.mpr ⟨ht,hts⟩
        exact hrelation ▸ ht'
    again := hr.removeSession_absent (hr.shows.ids_eq ▸ hunregistered)
    commutes := hc.removeSession_comm s
    registers := by
      intro hs
      rw [← hc.shows.ids_eq] at hs
      exact hc.registerNewSession_removed hs
    registered := by
      intro keepAliveSecs currentTime broker' hok
      obtain ⟨hall,hnone⟩ := hr.registerNewSession_ok hok
      exact ⟨⟨_,hall,rfl,rfl,rfl,rfl,rfl⟩,hnone⟩ }

/-- Session 1 leaves after it has subscribed. -/
theorem removeSession_erases_subscriber : subscribeProcessed.Erases 1 :=
  removeSession_erases (reachable_of_exec (Option.some_get (by decide)).symm) 1

end PicoBroker

end Picobroker
