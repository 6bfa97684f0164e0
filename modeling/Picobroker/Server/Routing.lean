import Picobroker.Server.Pipeline

/-! What the Tokio server delivers, told by what its clients sent: while no processing fails, a client
gets the messages that match its subscriptions and the answers to its own packets. -/
namespace Picobroker
open Rust

variable {T P Q S M B F : ℕ} {ε : Type}

namespace SessionMap

variable {m : SessionMap T P}

/-- One packet waits for one session, and none for the others. -/
lemma queued_singleton (hnodup : m.ids.Nodup) {s : ℕ} (hs : s ∈ m.ids) {packet : Packet T P}
    (hrx : ∀ t, m.rx t = if t = s then [packet] else []) : m.queued = [(s,packet)] := by
  obtain ⟨pre,post,hids⟩ := List.append_of_mem hs
  have hnone : ∀ l : List ℕ, s ∉ l → l.flatMap (fun t => (m.rx t).map (t,·)) = [] := by
    intro l hl
    rw [List.flatMap_eq_nil_iff]
    intro t ht
    have hne : t ≠ s := fun he => hl (he ▸ ht)
    rw [hrx,if_neg hne]
    rfl
  rw [hids,List.nodup_middle,List.nodup_cons,List.mem_append,not_or] at hnodup
  obtain ⟨⟨hpre,hpost⟩,-⟩ := hnodup
  rw [queued,hids,List.flatMap_append,List.flatMap_cons,hnone pre hpre,hnone post hpost,hrx,if_pos rfl]
  rfl

lemma queued_eq_nil (hq : m.queued = []) {s : ℕ} (hs : s ∈ m.ids) : m.rx s = [] := by
  rw [queued,List.flatMap_eq_nil_iff] at hq
  exact List.map_eq_nil_iff.mp (hq s hs)

end SessionMap

namespace PicoBroker

/-- No received packet waits to be handled. -/
def Emptied (broker : PicoBroker T P Q S M B) : Prop := ∀ s, broker.rx s = []

variable {broker broker' : PicoBroker T P Q S M B} {s : ℕ} {packet : Packet T P} {currentTime : ℕ}

/-- Processing that succeeds handles all packets that waited. -/
lemma Consistent.emptied_of_processAll (h : broker.Consistent broker.sessions.toMap) {u : Unit}
    (hok : processAllSessionPackets broker = .ok u broker') : broker'.Emptied := by
  have hleaves := h.forEach_handleQueued h.queued_eq.symm
  rw [h.processAllSessionPackets_eq] at hok
  have hall : (handledIn broker).map Prod.snd = broker.queued := Proc.turns_map_snd hok
  rw [hok,Outcome.leaves_ok] at hleaves
  obtain ⟨hc,-,hq⟩ := hleaves
  change broker.queued = (handledIn broker).map Prod.snd ++ _ at hq
  rw [hall,List.self_eq_append_right] at hq
  intro t
  rw [hc.rx_eq]
  by_cases ht : t ∈ broker'.sessions.toMap.ids
  · exact SessionMap.queued_eq_nil hq ht
  · exact (hc.shows.find_none ht).2.2.1

lemma Consistent.emptied_of_receive (h : broker.Consistent broker.sessions.toMap) {u : Unit}
    (hok : PicoBroker.receive s packet currentTime broker = .ok u broker') : broker'.Emptied := by
  rw [PicoBroker.receive,Proc.bind_apply,Outcome.andThen_eq_ok] at hok
  obtain ⟨u',b₁,hq,hp⟩ := hok
  obtain ⟨-,hq'⟩ | ⟨-,b,hq',-⟩ | ⟨hq',-⟩ | ⟨-,b,hq',-,hc⟩ :=
    h.queuePacketReceivedFromClient s packet currentTime
  · rw [hq'] at hq; cases hq
  · rw [hq'] at hq; cases hq
  · rw [hq'] at hq; cases hq
  · rw [hq'] at hq
    cases hq
    exact hc.self.1.emptied_of_processAll hp

/-- When nothing else waits, a received packet queues its own output. -/
lemma Consistent.queuedFor_eq (h : broker.Consistent broker.sessions.toMap) (hempty : broker.Emptied)
    {u : Unit} (hok : PicoBroker.receive s packet currentTime broker = .ok u broker') (t : ℕ) :
    broker.queuedFor s packet currentTime t = output t (broker,(s,packet)) := by
  rw [PicoBroker.queuedFor,hok,Outcome.state?_ok]
  rw [PicoBroker.receive,Proc.bind_apply,Outcome.andThen_eq_ok] at hok
  obtain ⟨u',b₁,hq,hp⟩ := hok
  obtain ⟨-,hq'⟩ | ⟨-,b,hq',-⟩ | ⟨hq',-⟩ | ⟨hs,b,hq',htopics,hc⟩ :=
    h.queuePacketReceivedFromClient s packet currentTime
  · rw [hq'] at hq; cases hq
  · rw [hq'] at hq; cases hq
  · rw [hq'] at hq; cases hq
  · rw [hq'] at hq
    cases hq
    have hrx : ∀ t, broker.sessions.toMap.rx t = [] := fun t => (h.rx_eq t).symm.trans (hempty t)
    have hqueued : b₁.queued = [(s,packet)] := by
      rw [hc.queued_eq]
      refine SessionMap.queued_singleton hc.shows.nodup hs ?_
      intro t
      rw [SessionMap.setRx_rx,SessionMap.setProfile_rx,hrx,hrx]
      rfl
    have hhandled : handledIn b₁ = [(b₁,(s,packet))] := by
      rw [handledIn,hqueued,Proc.turns]
      split <;> rfl
    have hforward : forwarded b₁ packet t = forwarded broker packet t := by
      unfold forwarded
      rw [htopics]
    change (broker'.tx t).drop (broker.tx t).length = _
    rw [hc.processAllSessionPackets_tx hp t,hhandled,List.flatMap_singleton,hc.tx_eq,h.tx_eq,
      SessionMap.setRx_tx,SessionMap.setProfile_tx,List.drop_left,output,output,hforward]

/-- A packet of no session is not handled. -/
lemma Consistent.queuedFor_absent (h : broker.Consistent broker.sessions.toMap)
    (hs : s ∉ broker.sessions.ids) (t : ℕ) : broker.queuedFor s packet currentTime t = [] := by
  have hr := h.receive s packet currentTime
  rw [PicoBroker.queuedFor]
  generalize PicoBroker.receive s packet currentTime broker = o at hr ⊢
  cases hr with
  | absent => simp only [Outcome.state?_err,List.drop_length]
  | failed mem => exact absurd mem hs
  | done mem => exact absurd mem hs
  | panicked => rfl

/-- Serving succeeds when the handling does, and then takes the packets of its own session. -/
lemma Consistent.receive_of_serve {push : List (Packet T P) → Packet T P → List (Packet T P)}
    (h : broker.Consistent broker.sessions.toMap) {result : List ℕ × List (Packet T P)}
    (call : (PicoBroker.serve push s packet currentTime broker : Outcome _ ε _) =
      .ok (.ok result) broker') :
    ∃ processed, PicoBroker.receive s packet currentTime broker = .ok () processed ∧
      ∀ t, broker'.rx t = processed.rx t := by
  have hr := h.receive s packet currentTime
  rw [PicoBroker.serve,Proc.bind_apply] at call
  cases ho : PicoBroker.receive s packet currentTime broker with
  | ok u b₁ =>
    rw [ho] at hr
    cases hr with
    | done mem grown =>
      obtain ⟨b₂,hd,-,hc,-⟩ := grown.consistent.dequeueAll (ε := ε) push s
      rw [Proc.attempt_ok ho,Outcome.andThen_ok] at call
      simp only [Proc.bind_apply,Proc.get_apply,Outcome.andThen_ok,grown.consistent.pendingSessions,
        Proc.lift_some,hd] at call
      cases call
      refine ⟨b₁,rfl,fun t => ?_⟩
      rw [hc.rx_eq,SessionMap.setTx_rx,← grown.consistent.rx_eq]
  | err error b₁ =>
    rw [Proc.attempt_err ho,Outcome.andThen_ok,Proc.bind_apply,Outcome.andThen_eq_ok] at call
    obtain ⟨u,b₂,-,hpure⟩ := call
    cases hpure
  | abort why =>
    rw [Proc.attempt_abort ho,Outcome.andThen_abort] at call
    cases call

/-- With a place for every session in an entry, the output is what matches and the answer. -/
lemma Consistent.output_eq {v : PicoBroker T P Q S M B × (ℕ × Packet T P)} {m : SessionMap T P}
    (h : v.1.Consistent m) (hB : S ≤ B) (s : ℕ) :
    output s v = (matchedPublish s v).toList.map Packet.publish ++ answered s v := by
  change forwarded v.1 v.2.2 s ++ answered s v = _
  rw [List.append_cancel_right_eq,matchedPublish]
  cases hp : v.2.2 with
  | publish publish =>
    obtain ⟨subscribers,hget,hiff⟩ := h.getSubscribers_iff hB publish.topicName
    simp only [forwarded,hget,hiff,Packet.publish?]
    by_cases hm : v.1.topics.Matched publish.topicName s
    · simp [hm,Option.filter]
    · simp [hm,Option.filter]
  | _ => rfl

/-- A session that is removed loses what waited; the others keep it. -/
lemma Consistent.rx_removeSessions (h : broker.Consistent broker.sessions.toMap) (ids : List ℕ)
    (t : ℕ) : (broker.removeSessions ids).rx t = if t ∈ ids then [] else broker.rx t := by
  induction ids generalizing broker with
  | nil => rfl
  | cons s ids ih =>
    have hrest := ih (h.removeSession s).self.1
    rw [(h.removeSession s).rx_eq,SessionMap.remove_rx,← h.rx_eq] at hrest
    refine hrest.trans ?_
    by_cases hts : t = s
    · simp [hts]
    · simp [hts]

lemma Consistent.emptied_cleaned (h : broker.Consistent broker.sessions.toMap)
    (hempty : broker.Emptied) (currentTime : ℕ) : (broker.cleaned currentTime).Emptied := by
  intro t
  have hfirst := h.removeSessions (broker.expiredIds currentTime)
  rw [PicoBroker.cleaned,hfirst.rx_removeSessions,h.rx_removeSessions,hempty]
  split_ifs <;> rfl

end PicoBroker

namespace TokioServer

namespace System

variable {cfg : Config} {system system' : System T P Q S M B F} {i : ℕ} {h : Handler T P F}
  {action : Action} {hist : List (System T P Q S M B F × Event)}

/-- What a step should put on its way to the client of a session: the PUBLISH that is processed, if it
matches one of the filters of the session, and the answer to a packet of the session itself. -/
def routed (s : ℕ) (e : System T P Q S M B F × Event) : List (Packet T P) :=
  match arriving e with
  | some (s',packet,_) =>
    if s' ∈ e.1.broker.sessions.ids then
      (PicoBroker.matchedPublish s (e.1.broker,(s',packet))).toList.map Packet.publish ++
        PicoBroker.answered s (e.1.broker,(s',packet))
    else []
  | none => []

lemma Acts.emptied (ha : Acts cfg i h system action system') (hi : system.handlers[i]? = some h)
    (ho : system.Owned) (hempty : system.broker.Emptied)
    (hok : ¬ Fails (system,.task i action)) : system'.broker.Emptied := by
  have hc := ho.consistent
  cases ha with
  | @joined currentTime broker phase call =>
    obtain ⟨e,hr⟩ | ⟨why,hr⟩ | ⟨b,hr,-,-,hb⟩ :=
      hc.registerNewSession h.sessionId cfg.defaultKeepAliveSecs currentTime
    · rw [hr] at call; cases call
    · rw [hr] at call; cases call
    · rw [hr] at call
      cases call
      intro t
      rw [setPhase_broker,hb.rx_eq,SessionMap.add_rx,← hc.rx_eq,hempty]
      split_ifs <;> rfl
  | @rejected currentTime error broker phase call =>
    obtain ⟨e,hr⟩ | ⟨why,hr⟩ | ⟨b,hr,-⟩ :=
      hc.registerNewSession h.sessionId cfg.defaultKeepAliveSecs currentTime
    · rw [hr] at call; cases call; exact hempty
    · rw [hr] at call; cases call
    · rw [hr] at call; cases call
  | @served currentTime packet sessions packets broker phase call =>
    obtain ⟨processed,hr,hrx⟩ := hc.receive_of_serve call
    intro t
    rw [setPhase_broker,hrx,hc.emptied_of_receive hr]
  | @failed currentTime packet error broker phase call =>
    have hs := hc.serve (ε := Empty) push h.sessionId packet currentTime
    by_cases hmem : h.sessionId ∈ system.broker.sessions.ids
    · refine absurd ?_ hok
      simp only [Fails,processing,arriving,hi,Option.bind_some,phase,Option.map_some,call]
      exact hmem
    · rw [call] at hs
      cases hs with
      | absent => exact hempty
      | failed mem => exact absurd mem hmem
  | @fetched packets broker phase call =>
    obtain ⟨b,hd,-,hb,-⟩ := hc.dequeueAll (ε := Empty) push h.sessionId
    rw [hd] at call
    cases call
    intro t
    rw [setPhase_broker,hb.rx_eq,SessionMap.setTx_rx,← hc.rx_eq,hempty]
  | left phase =>
    intro t
    rw [setPhase_broker,(hc.removeSession h.sessionId).rx_eq,SessionMap.remove_rx,← hc.rx_eq,hempty]
    split_ifs <;> rfl
  | notified phase _ signals | resumed phase signals =>
    rw [setPhase_broker,signals.shared.1]
    exact hempty
  | _ => exact hempty

/-- What a step that does not fail queues. -/
lemma Owned.entering_eq (ho : system.Owned) (hB : S ≤ B) (hempty : system.broker.Emptied) {event : Event}
    (hok : ¬ Fails (system,event)) (hn : system.next cfg event = some system') (s : ℕ) :
    entering s (system,event) = routed s (system,event) := by
  have hc := ho.consistent
  unfold entering routed
  cases ha : arriving (system,event) with
  | none => rfl
  | some a =>
    obtain ⟨s',packet,currentTime⟩ := a
    obtain ⟨i,h,rfl,hi,hphase,rfl⟩ := arriving_eq_some ha
    simp only
    split_ifs with hmem
    · cases steps_of_next hn with
      | acted handler acts =>
        rw [hi] at handler
        cases handler
        cases acts with
        | alone step => cases step
        | served phase call =>
          rw [hphase] at phase
          cases phase
          obtain ⟨processed,hr,-⟩ := hc.receive_of_serve call
          rw [hc.queuedFor_eq hempty hr,hc.output_eq hB]
        | failed phase call =>
          refine absurd ?_ hok
          simp only [Fails,processing,ha,Option.map_some]
          rw [hphase] at phase
          cases phase
          simp only [call]
          exact hmem
    · exact hc.queuedFor_absent hmem s

/-- What is known after a run without failures. -/
structure Routed (hist : List (System T P Q S M B F × Event)) (system : System T P Q S M B F) :
    Prop where
  owned : system.Owned
  emptied : (∀ e ∈ hist, ¬ Fails e) → system.broker.Emptied
  entered : (∀ e ∈ hist, ¬ Fails e) → ∀ s, entered hist s = hist.flatMap (routed s)

lemma Routed.next (hB : S ≤ B) (hr : Routed hist system) {event : Event}
    (hn : system.next cfg event = some system') : Routed (hist ++ [(system,event)]) system' := by
  have ho := hr.owned
  have hsplit : (∀ e ∈ hist ++ [(system,event)], ¬ Fails e) →
      (∀ e ∈ hist, ¬ Fails e) ∧ ¬ Fails (system,event) := by
    intro hall
    exact ⟨fun e he => hall e (List.mem_append_left _ he),
      hall _ (List.mem_append_right _ (List.mem_singleton_self _))⟩
  refine ⟨ho.next hn,fun hall => ?_,fun hall s => ?_⟩
  · obtain ⟨hall,hok⟩ := hsplit hall
    have hempty := hr.emptied hall
    cases steps_of_next hn with
    | acted handler acts => exact acts.emptied handler ho hempty hok
    | accepted => exact hempty
    | cleaned currentTime => exact ho.consistent.emptied_cleaned hempty currentTime
  · obtain ⟨hall,hok⟩ := hsplit hall
    rw [entered_concat,hr.entered hall,ho.entering_eq hB (hr.emptied hall) hok hn,List.flatMap_append,
      List.flatMap_singleton]

end System

end TokioServer

end Picobroker
