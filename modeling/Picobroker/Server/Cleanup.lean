import Picobroker.Broker.Removal
import Picobroker.Session.Expiry

/-! The clean-up task of both servers: what one scan removes, and what it leaves alone. -/
namespace Picobroker
open Rust

variable {T P Q S M B : ℕ}

namespace PicoBroker

/-- `for session_id in ids { broker.remove_session(session_id); }`. -/
def removeSessions (ids : List ℕ) (broker : PicoBroker T P Q S M B) : PicoBroker T P Q S M B :=
  ids.foldl (fun broker sessionId => (broker.removeSession sessionId).2) broker

/-- `get_expired_sessions(..).into_iter().flatten().map(|info| info.session_id)`. -/
def expiredIds (broker : PicoBroker T P Q S M B) (currentTime : ℕ) : List ℕ :=
  (broker.getExpiredSessions currentTime).reduceOption.map (·.sessionId)

/-- `get_disconnected_sessions().into_iter().flatten()`. -/
def disconnectedIds (broker : PicoBroker T P Q S M B) : List ℕ :=
  broker.getDisconnectedSessions.reduceOption

end PicoBroker

/-- One scan of `tokio_mqtt_server::server::cleanup_task`: the expired sessions, and then the
disconnected ones of the others. Their entries in the map of connections go with them. -/
def TokioServer.cleanup (currentTime : ℕ) (connections : Finset ℕ) (broker : PicoBroker T P Q S M B) :
    Finset ℕ × PicoBroker T P Q S M B :=
  let expired := broker.expiredIds currentTime
  let broker := broker.removeSessions expired
  let disconnected := broker.disconnectedIds
  ((connections \ expired.toFinset) \ disconnected.toFinset,broker.removeSessions disconnected)

/-- `collect` into a `heapless::Vec` of four places, which panics when there is no place left. -/
def Rp2040Server.collect (ids : List ℕ) : Option (List ℕ) :=
  if ids.length ≤ 4 then some ids else none

/-- One scan of `rp2040_mqtt_server::cleanup_task`. -/
def Rp2040Server.cleanup (currentTime : ℕ) (broker : PicoBroker T P Q S M B) :
    Option (PicoBroker T P Q S M B) := do
  let expired ← collect (broker.expiredIds currentTime)
  let broker := broker.removeSessions expired
  let disconnected ← collect broker.disconnectedIds
  some (broker.removeSessions disconnected)

/-- A session that a scan at this time leaves alone. -/
def Session.Stays (currentTime : ℕ) (session : Session T P Q) : Prop :=
  (session.expirationInfo currentTime).isExpired = false ∧ session.state ≠ .disconnected

instance (currentTime : ℕ) (session : Session T P Q) : Decidable (session.Stays currentTime) :=
  inferInstanceAs (Decidable (_ ∧ _))

namespace PicoBroker

variable {broker : PicoBroker T P Q S M B} {m : SessionMap T P}

lemma reachable_removeSessions (ids : List ℕ) (broker : PicoBroker T P Q S M B) :
    Reachable next broker (broker.removeSessions ids) := by
  induction ids generalizing broker with
  | nil => exact .refl next broker
  | cons s ids ih =>
    obtain ⟨hist,hrun⟩ := ih (broker.removeSession s).2
    exact ((Reachable.refl next broker).step (a := .removeSession s) rfl).run hrun

section Remove

variable (h : broker.Consistent broker.sessions.toMap) (ids : List ℕ)
include h

lemma Consistent.removeSessions :
    (broker.removeSessions ids).Consistent (broker.removeSessions ids).sessions.toMap := by
  induction ids generalizing broker with
  | nil => exact h
  | cons s ids ih => exact ih (h.removeSession s).self.1

/-- Exactly the listed sessions go. -/
lemma Consistent.all_removeSessions : (broker.removeSessions ids).sessions.all =
    broker.sessions.all.filter (fun session => decide (session.sessionId ∉ ids)) := by
  induction ids generalizing broker with
  | nil => simp [PicoBroker.removeSessions]
  | cons s ids ih =>
    have hrest := ih (h.removeSession s).self.1
    rw [h.all_removeSession,List.filter_filter] at hrest
    refine hrest.trans (List.filter_congr ?_)
    intro session _
    rw [Bool.eq_iff_iff]
    simp only [Bool.and_eq_true,decide_eq_true_eq,bne_iff_ne,List.mem_cons,not_or]
    exact and_comm

/-- And with them exactly their subscriptions. -/
lemma Consistent.relation_removeSessions : (broker.removeSessions ids).topics.relation =
    broker.topics.relation.filter (fun x => x.1 ∉ ids) := by
  induction ids generalizing broker with
  | nil => simp [PicoBroker.removeSessions]
  | cons s ids ih =>
    have hrest := ih (h.removeSession s).self.1
    rw [show (broker.removeSession s).2.topics.relation = _ from
      (h.topics.relation_unregisterAll s).1,Finset.filter_filter] at hrest
    refine hrest.trans (Finset.filter_congr ?_)
    intro x _
    rw [List.mem_cons,not_or]

lemma Consistent.tx_removeSessions (t : ℕ) :
    (broker.removeSessions ids).tx t = if t ∈ ids then [] else broker.tx t := by
  induction ids generalizing broker with
  | nil => rfl
  | cons s ids ih =>
    have hrest := ih (h.removeSession s).self.1
    rw [(h.removeSession s).tx_eq,SessionMap.remove_tx,← h.tx_eq] at hrest
    refine hrest.trans ?_
    by_cases hts : t = s
    · simp [hts]
    · simp [hts]

end Remove

/-- A listing has a place for every session. -/
lemma Consistent.reduceOption_fillSlots {β : Type} (h : broker.Consistent m)
    (select : Session T P Q → Option β) :
    (fillSlots select broker.sessions.all (List.replicate S none) 0).reduceOption =
      broker.sessions.all.filterMap select := by
  have hle := h.shows.length_le
  rw [h.shows.ids_eq,SessionRegistry.ids,List.length_map] at hle
  rw [Rust.reduceOption_fillSlots,List.take_of_length_le]
  exact (List.length_filterMap_le _ _).trans hle

lemma Consistent.expiredIds_eq (h : broker.Consistent m) (currentTime : ℕ) :
    broker.expiredIds currentTime = (broker.sessions.all.filter (fun session =>
      (session.expirationInfo currentTime).isExpired)).map (·.sessionId) := by
  have hlist := h.reduceOption_fillSlots (fun session =>
    if (session.expirationInfo currentTime).isExpired then
      some (session.expirationInfo currentTime) else none)
  rw [expiredIds,PicoBroker.getExpiredSessions]
  refine (congrArg (List.map _) hlist).trans ?_
  rw [List.map_filterMap,← List.filterMap_eq_filter,List.map_filterMap]
  apply List.filterMap_congr
  intro session _
  rw [Option.guard]
  split_ifs <;> rfl

lemma Consistent.disconnectedIds_eq (h : broker.Consistent m) : broker.disconnectedIds =
    (broker.sessions.all.filter (fun session => decide (session.state = .disconnected))).map
      (·.sessionId) := by
  have hlist := h.reduceOption_fillSlots (fun session =>
    if session.state = .disconnected then some session.sessionId else none)
  refine hlist.trans ?_
  rw [← List.filterMap_eq_filter,List.map_filterMap]
  apply List.filterMap_congr
  intro session _
  rw [Option.guard]
  by_cases hd : session.state = .disconnected <;> simp [hd]

/-- Among the registered sessions an id is listed exactly when its session is selected. -/
lemma Consistent.mem_map_filter (h : broker.Consistent m) {session : Session T P Q}
    (hs : session ∈ broker.sessions.all) (p : Session T P Q → Bool) :
    session.sessionId ∈ (broker.sessions.all.filter p).map (·.sessionId) ↔ p session = true := by
  constructor
  · intro hmem
    obtain ⟨session',hs',hid⟩ := List.mem_map.mp hmem
    obtain ⟨hs',hp⟩ := List.mem_filter.mp hs'
    rwa [List.inj_on_of_nodup_map h.shows.wellFormed.distinct hs' hs hid] at hp
  · intro hp
    exact List.mem_map_of_mem (List.mem_filter.mpr ⟨hs,hp⟩)

/-- What is left after a scan. -/
structure Cleaned (currentTime : ℕ) (broker broker' : PicoBroker T P Q S M B) : Prop where
  sessions : broker'.sessions.all =
    broker.sessions.all.filter (fun session => decide (session.Stays currentTime))
  subscriptions : broker'.topics.relation =
    broker.topics.relation.filter (fun x => x.1 ∈ broker'.sessions.ids)

/-- The two rounds of removals of a scan. -/
def cleaned (currentTime : ℕ) (broker : PicoBroker T P Q S M B) : PicoBroker T P Q S M B :=
  (broker.removeSessions (broker.expiredIds currentTime)).removeSessions
    (broker.removeSessions (broker.expiredIds currentTime)).disconnectedIds

lemma reachable_cleaned (currentTime : ℕ) (broker : PicoBroker T P Q S M B) :
    Reachable next broker (broker.cleaned currentTime) := by
  obtain ⟨hist,hrun⟩ := reachable_removeSessions
    (broker.removeSessions (broker.expiredIds currentTime)).disconnectedIds
    (broker.removeSessions (broker.expiredIds currentTime))
  exact (reachable_removeSessions (broker.expiredIds currentTime) broker).run hrun

section Scan

variable (h : broker.Consistent broker.sessions.toMap) (currentTime : ℕ)
include h

lemma Consistent.all_expired :
    (broker.removeSessions (broker.expiredIds currentTime)).sessions.all =
      broker.sessions.all.filter (fun session =>
        !(session.expirationInfo currentTime).isExpired) := by
  rw [h.all_removeSessions]
  apply List.filter_congr
  intro session hs
  rw [Bool.eq_iff_iff,decide_eq_true_eq,h.expiredIds_eq,h.mem_map_filter hs,Bool.not_eq_true,
    Bool.not_eq_true']

lemma Consistent.all_cleaned : (broker.cleaned currentTime).sessions.all =
    broker.sessions.all.filter (fun session => decide (session.Stays currentTime)) := by
  have hfirst := h.removeSessions (broker.expiredIds currentTime)
  rw [PicoBroker.cleaned,hfirst.all_removeSessions]
  have hlast : ∀ session ∈ (broker.removeSessions (broker.expiredIds currentTime)).sessions.all,
      decide (session.sessionId ∉
        (broker.removeSessions (broker.expiredIds currentTime)).disconnectedIds) =
      decide (session.state ≠ .disconnected) := by
    intro session hs
    rw [decide_eq_decide,hfirst.disconnectedIds_eq,hfirst.mem_map_filter hs,decide_eq_true_eq]
  rw [List.filter_congr hlast,h.all_expired,List.filter_filter]
  apply List.filter_congr
  intro session _
  rw [Bool.eq_iff_iff]
  simp only [Bool.and_eq_true,Bool.not_eq_true',decide_eq_true_eq]
  exact and_comm

lemma Consistent.cleaned : Cleaned currentTime broker (broker.cleaned currentTime) := by
  have hfirst := h.removeSessions (broker.expiredIds currentTime)
  have hlast := hfirst.removeSessions
    (broker.removeSessions (broker.expiredIds currentTime)).disconnectedIds
  refine ⟨h.all_cleaned currentTime,?_⟩
  rw [PicoBroker.cleaned,hfirst.relation_removeSessions,h.relation_removeSessions,
    Finset.filter_filter]
  apply Finset.filter_congr
  intro x hx
  obtain ⟨entry,he,-,hmem⟩ := TopicRegistry.mem_relation.mp hx
  obtain ⟨session,hs,hid⟩ := List.mem_map.mp (h.registered entry he x.1 hmem)
  rw [SessionRegistry.ids,hfirst.all_removeSessions,h.all_removeSessions,List.filter_filter,
    List.mem_map]
  constructor
  · intro hnot
    refine ⟨session,List.mem_filter.mpr ⟨hs,?_⟩,hid⟩
    simp only [hid,Bool.and_eq_true,decide_eq_true_eq]
    exact hnot.symm
  · rintro ⟨session',hs',hid'⟩
    obtain ⟨-,hnot⟩ := List.mem_filter.mp hs'
    simp only [hid',Bool.and_eq_true,decide_eq_true_eq] at hnot
    exact hnot.symm

/-- The registered sessions but for those of the two rounds. -/
lemma Consistent.mem_cleaned (s : ℕ) : s ∈ (broker.cleaned currentTime).sessions.ids ↔
    s ∈ broker.sessions.ids ∧ s ∉ broker.expiredIds currentTime ∧
      s ∉ (broker.removeSessions (broker.expiredIds currentTime)).disconnectedIds := by
  have hfirst := h.removeSessions (broker.expiredIds currentTime)
  rw [SessionRegistry.ids,PicoBroker.cleaned,hfirst.all_removeSessions,h.all_removeSessions,
    SessionRegistry.ids,List.mem_map,List.mem_map]
  simp only [List.mem_filter,decide_eq_true_eq]
  constructor
  · rintro ⟨session,⟨⟨hs,he⟩,hd⟩,rfl⟩
    exact ⟨⟨session,hs,rfl⟩,he,hd⟩
  · rintro ⟨⟨session,hs,rfl⟩,he,hd⟩
    exact ⟨session,⟨⟨hs,he⟩,hd⟩,rfl⟩

/-- The queue of a session is gone with it, or untouched. -/
lemma Consistent.tx_cleaned (t : ℕ) : (broker.cleaned currentTime).tx t = [] ∨
    (broker.cleaned currentTime).tx t = broker.tx t := by
  have hfirst := h.removeSessions (broker.expiredIds currentTime)
  rw [PicoBroker.cleaned,hfirst.tx_removeSessions,h.tx_removeSessions]
  split_ifs
  · exact .inl rfl
  · exact .inl rfl
  · exact .inr rfl

lemma Consistent.tx_cleaned_of_mem {t : ℕ} (ht : t ∈ (broker.cleaned currentTime).sessions.ids) :
    (broker.cleaned currentTime).tx t = broker.tx t := by
  obtain ⟨-,he,hd⟩ := (h.mem_cleaned currentTime t).mp ht
  have hfirst := h.removeSessions (broker.expiredIds currentTime)
  rw [PicoBroker.cleaned,hfirst.tx_removeSessions,h.tx_removeSessions,if_neg hd,if_neg he]

/-- The sessions are a part of those before. -/
lemma Consistent.ids_cleaned (s : ℕ) : s ∈ (broker.cleaned currentTime).sessions.ids ↔
    ∃ session ∈ broker.sessions.all, session.sessionId = s ∧ session.Stays currentTime := by
  rw [SessionRegistry.ids,h.all_cleaned,List.mem_map]
  simp only [List.mem_filter,decide_eq_true_eq]
  constructor
  · rintro ⟨session,⟨hs,hstays⟩,hid⟩
    exact ⟨session,hs,hid,hstays⟩
  · rintro ⟨session,hs,hid,hstays⟩
    exact ⟨session,⟨hs,hstays⟩,hid⟩

/-- The entries of the removed sessions leave the map of connections. -/
lemma Consistent.connections_cleaned (connections : Finset ℕ) (s : ℕ) :
    s ∈ (TokioServer.cleanup currentTime connections broker).1 ↔
      s ∈ connections ∧ (s ∈ broker.sessions.ids → s ∈ (broker.cleaned currentTime).sessions.ids) := by
  have hfirst := h.removeSessions (broker.expiredIds currentTime)
  have hids : ∀ s ∈ broker.expiredIds currentTime, s ∈ broker.sessions.ids := by
    intro s hs
    rw [h.expiredIds_eq] at hs
    exact List.map_subset _ (List.filter_subset_self _) hs
  have hids' : ∀ s ∈ (broker.removeSessions (broker.expiredIds currentTime)).disconnectedIds,
      s ∈ broker.sessions.ids := by
    intro s hs
    rw [hfirst.disconnectedIds_eq,h.all_removeSessions] at hs
    obtain ⟨session,hmem,rfl⟩ := List.mem_map.mp hs
    exact List.mem_map_of_mem (List.mem_of_mem_filter (List.mem_of_mem_filter hmem))
  rw [TokioServer.cleanup,Finset.mem_sdiff,Finset.mem_sdiff,List.mem_toFinset,List.mem_toFinset,
    h.mem_cleaned,and_assoc]
  apply and_congr_right
  intro _
  constructor
  · intro hnot hs
    exact ⟨hs,hnot⟩
  · intro hstays
    constructor
    · intro he
      exact (hstays (hids s he)).2.1 he
    · intro hd
      exact (hstays (hids' s hd)).2.2 hd

/-- The lists of the embedded server have four places each. -/
lemma Consistent.cleanup_rp2040 : Rp2040Server.cleanup currentTime broker =
    if (broker.sessions.all.filter (fun session =>
        (session.expirationInfo currentTime).isExpired)).length ≤ 4 ∧
      (broker.sessions.all.filter (fun session => decide
        ((session.expirationInfo currentTime).isExpired = false ∧
          session.state = .disconnected))).length ≤ 4
    then some (broker.cleaned currentTime) else none := by
  have hfirst := h.removeSessions (broker.expiredIds currentTime)
  have hdisconnected : (broker.removeSessions (broker.expiredIds currentTime)).disconnectedIds.length =
      (broker.sessions.all.filter (fun session => decide
        ((session.expirationInfo currentTime).isExpired = false ∧
          session.state = .disconnected))).length := by
    rw [hfirst.disconnectedIds_eq,List.length_map,h.all_expired,List.filter_filter]
    apply congrArg List.length
    apply List.filter_congr
    intro session _
    rw [Bool.eq_iff_iff]
    simp only [Bool.and_eq_true,Bool.not_eq_true',decide_eq_true_eq]
    exact and_comm
  have hexpired : (broker.expiredIds currentTime).length = (broker.sessions.all.filter
      (fun session => (session.expirationInfo currentTime).isExpired)).length := by
    rw [h.expiredIds_eq,List.length_map]
  rw [← hexpired,← hdisconnected]
  unfold Rp2040Server.cleanup Rp2040Server.collect
  by_cases he : (broker.expiredIds currentTime).length ≤ 4
  · rw [if_pos he,Option.bind_eq_bind,Option.bind_some]
    by_cases hd :
      (broker.removeSessions (broker.expiredIds currentTime)).disconnectedIds.length ≤ 4
    · rw [if_pos ⟨he,hd⟩]
      simp only [if_pos hd,Option.bind_some]
      rfl
    · rw [if_neg (fun hboth => hd hboth.2)]
      simp only [if_neg hd,Option.bind_none]
  · rw [if_neg he,if_neg (fun hboth => he hboth.1)]
    rfl

end Scan

/-- In every state that the operations reach, a scan removes exactly the sessions that have expired or
are disconnected, with their subscriptions and their entries in the map of connections, and leaves all
others as they are. The embedded server does the same, unless more than four sessions go in one
round: then it panics. -/
theorem cleanup_exact (h : Reachable next new broker) (currentTime : ℕ) (connections : Finset ℕ) :
    Cleaned currentTime broker (TokioServer.cleanup currentTime connections broker).2 ∧
    (∀ s, s ∈ (TokioServer.cleanup currentTime connections broker).1 ↔ s ∈ connections ∧
      (s ∈ broker.sessions.ids →
        s ∈ (TokioServer.cleanup currentTime connections broker).2.sessions.ids)) ∧
    Rp2040Server.cleanup currentTime broker =
      if (broker.sessions.all.filter (fun session =>
          (session.expirationInfo currentTime).isExpired)).length ≤ 4 ∧
        (broker.sessions.all.filter (fun session => decide
          ((session.expirationInfo currentTime).isExpired = false ∧
            session.state = .disconnected))).length ≤ 4
      then some (TokioServer.cleanup currentTime connections broker).2 else none := by
  have hc := consistent_of_reachable h
  exact ⟨hc.cleaned currentTime,hc.connections_cleaned currentTime connections,
    hc.cleanup_rp2040 currentTime⟩

/-- Session 1 has said goodbye, session 2 is still there. -/
def goodbyeCalls : List (Call 1 1) :=
  [.registerNewSession 1 60 0,.registerNewSession 2 60 0,
    .queuePacketReceivedFromClient 1 (.disconnect {}) 1,.processAllSessionPackets]

def goodbye : PicoBroker 1 1 2 2 1 2 := (exec next new goodbyeCalls).get (by decide)

theorem cleanup_exact_goodbye :
    Cleaned 2 goodbye (TokioServer.cleanup 2 {1,2} goodbye).2 ∧
    (∀ s, s ∈ (TokioServer.cleanup 2 {1,2} goodbye).1 ↔ s ∈ ({1,2} : Finset ℕ) ∧
      (s ∈ goodbye.sessions.ids → s ∈ (TokioServer.cleanup 2 {1,2} goodbye).2.sessions.ids)) ∧
    Rp2040Server.cleanup 2 goodbye =
      if (goodbye.sessions.all.filter (fun session =>
          (session.expirationInfo 2).isExpired)).length ≤ 4 ∧
        (goodbye.sessions.all.filter (fun session => decide
          ((session.expirationInfo 2).isExpired = false ∧ session.state = .disconnected))).length ≤ 4
      then some (TokioServer.cleanup 2 {1,2} goodbye).2 else none :=
  cleanup_exact (reachable_of_exec (Option.some_get (by decide)).symm) 2 {1,2}

end PicoBroker

end Picobroker
