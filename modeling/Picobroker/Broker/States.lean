import Picobroker.Rust.Alike
import Picobroker.Broker.Delivery
import Picobroker.Session.Refinement

/-! The state of a session: what sets it, and that nothing else looks at it. -/
namespace Picobroker
open Rust

variable {T P Q S M B : ℕ}

namespace PicoBroker

/-- The state of a registered session. -/
def stateOf (broker : PicoBroker T P Q S M B) (s : ℕ) : Option SessionState :=
  (broker.sessions.findSession s).map (·.state)

/-- The broker with another state of the session. -/
def setState (broker : PicoBroker T P Q S M B) (s : ℕ) (state : SessionState) :
    PicoBroker T P Q S M B :=
  (onSessions (SessionRegistry.withSession s
    (Proc.modify (fun session => { session with state }))) broker).state?.getD broker

/-- Two consistent brokers with the same topics, the sessions `ids` and the same packets in their
queues. What they know of a session may differ. -/
structure SameQueues (ids : List ℕ) (broker broker' : PicoBroker T P Q S M B) : Prop where
  left : broker.Consistent broker.sessions.toMap
  right : broker'.Consistent broker'.sessions.toMap
  topics : broker'.topics = broker.topics
  leftIds : broker.sessions.toMap.ids = ids
  rightIds : broker'.sessions.toMap.ids = ids
  rx : broker'.sessions.toMap.rx = broker.sessions.toMap.rx
  tx : broker'.sessions.toMap.tx = broker.sessions.toMap.tx

variable {broker broker' : PicoBroker T P Q S M B} {m m' : SessionMap T P} {s : ℕ} {ids : List ℕ}

lemma Consistent.sameQueues (h : broker.Consistent m) (h' : broker'.Consistent m')
    (htopics : broker'.topics = broker.topics) (hids : m.ids = ids) (hids' : m'.ids = ids)
    (hrx : m'.rx = m.rx) (htx : m'.tx = m.tx) : SameQueues ids broker broker' := by
  have hm := h.toMap_eq
  have hm' := h'.toMap_eq
  refine ⟨?_,?_,htopics,?_,?_,?_,?_⟩
  · rwa [hm]
  · rwa [hm']
  · rw [hm,hids]
  · rw [hm',hids']
  · rw [hm,hm',hrx]
  · rw [hm,hm',htx]

/-- Only metadata tells the broker from the one with another state. -/
lemma Consistent.sameQueues_setState (h : broker.Consistent m) (s : ℕ) (state : SessionState) :
    SameQueues m.ids broker (broker.setState s state) := by
  unfold setState
  by_cases hs : s ∈ m.ids
  · obtain ⟨b,hok,ht,hc⟩ := h.profile (f := fun session => { session with state })
      (g := fun p => { p with state }) hs (fun _ => rfl) (fun _ => rfl) (fun _ => rfl) (fun _ => rfl)
    rw [hok]
    exact h.sameQueues hc ht rfl rfl rfl rfl
  · rw [onSessions,Proc.zoom_apply,SessionRegistry.withSession_missing h.shows hs]
    exact h.sameQueues h rfl rfl rfl rfl rfl

/-- Sending ends alike. -/
lemma SameQueues.send (h : SameQueues ids broker broker') (hs : s ∈ ids) (packet : Packet T P) :
    (onSessions (SessionRegistry.queueTxPacket s packet) broker).Alike (SameQueues ids)
      (onSessions (SessionRegistry.queueTxPacket s packet) broker') := by
  have hleft := h.left.send (h.leftIds.symm ▸ hs) packet
  have hright := h.right.send (h.rightIds.symm ▸ hs) packet
  rw [h.tx] at hright
  obtain ⟨hfull,hq⟩ | ⟨hl,hcap,hq⟩ | ⟨hroom,hlt,b,hq,ht,hc⟩ := hleft
  · obtain ⟨-,hq'⟩ | ⟨hl',hcap',-⟩ | ⟨hroom',-⟩ := hright
    · rw [hq,hq']
      exact .err _ h
    · omega
    · omega
  · obtain ⟨hfull',-⟩ | ⟨-,-,hq'⟩ | ⟨-,hlt',-⟩ := hright
    · omega
    · rw [hq,hq']
      exact .abort _
    · omega
  · obtain ⟨hfull',-⟩ | ⟨hl',-⟩ | ⟨-,-,b',hq',ht',hc'⟩ := hright
    · omega
    · omega
    · rw [hq,hq']
      refine .ok () (hc.sameQueues hc' (by rw [ht,ht',h.topics]) h.leftIds h.rightIds h.rx ?_)
      funext t
      rw [SessionMap.send_tx,SessionMap.send_tx,h.tx]

/-- Taking a received packet ends alike. -/
lemma SameQueues.dequeueRx (h : SameQueues ids broker broker') (hs : s ∈ ids) :
    (onSessions (SessionRegistry.dequeueRxPacket s) broker).Alike (SameQueues ids)
      (onSessions (SessionRegistry.dequeueRxPacket s) broker') := by
  obtain ⟨b,hd,ht,hc,-⟩ := h.left.dequeueRx (h.leftIds.symm ▸ hs)
  obtain ⟨b',hd',ht',hc',-⟩ := h.right.dequeueRx (h.rightIds.symm ▸ hs)
  rw [hd,hd',h.rx]
  refine .ok _ (hc.sameQueues hc' (by rw [ht,ht',h.topics]) h.leftIds h.rightIds ?_ h.tx)
  funext t
  rw [SessionMap.setRx_rx,SessionMap.setRx_rx,h.rx]

/-- Handling a PUBLISH ends alike. -/
lemma SameQueues.handlePublish (h : SameQueues ids broker broker') (hs : s ∈ ids)
    (publish : PublishPacket T P) : (handlePublish s publish broker).Alike (SameQueues ids)
      (handlePublish s publish broker') := by
  unfold PicoBroker.handlePublish
  simp only [Proc.bind_apply,Proc.get_apply,Outcome.andThen_ok,h.topics]
  cases hget : broker.topics.getSubscribers publish.topicName with
  | none => exact .abort _
  | some subscribers =>
    rw [Proc.lift_some,Proc.lift_some,Outcome.andThen_ok,Outcome.andThen_ok,Proc.bind_apply,
      Proc.bind_apply]
    have hmem : ∀ x ∈ subscribers.asSlice, x ∈ ids := by
      intro x hx
      rw [← h.leftIds]
      exact h.left.mem_of_getSubscribers hget x hx
    apply (Proc.forEach_alike (fun x hx b b' hb => hb.send (hmem x hx) _) h).andThen
    intro _ b b' hb
    cases pubAckOf publish with
    | none => exact .ok () hb
    | some pubAck => exact hb.send hs pubAck

/-- Handling a SUBSCRIBE ends alike. -/
lemma SameQueues.handleSubscribe (h : SameQueues ids broker broker') (hs : s ∈ ids)
    (subscribe : SubscribePacket T) : (handleSubscribe s subscribe broker).Alike (SameQueues ids)
      (handleSubscribe s subscribe broker') := by
  have hleft := h.left.subscribe (h.leftIds.symm ▸ hs) subscribe.topicFilter
  have hright := h.right.subscribe (h.rightIds.symm ▸ hs) subscribe.topicFilter
  rw [h.topics] at hright
  have htopics : (onTopics (TopicRegistry.subscribe s subscribe.topicFilter) broker).Alike
      (SameQueues ids) (onTopics (TopicRegistry.subscribe s subscribe.topicFilter) broker') := by
    rw [onTopics,Proc.zoom_apply,Proc.zoom_apply,h.topics]
    cases hcall : TopicRegistry.subscribe s subscribe.topicFilter broker.topics with
    | ok u topics =>
      rw [hcall,Outcome.leaves_ok] at hleft hright
      exact .ok u (hleft.sameQueues hright rfl h.leftIds h.rightIds h.rx h.tx)
    | err e topics =>
      rw [hcall,Outcome.leaves_err] at hleft hright
      exact .err e (hleft.sameQueues hright rfl h.leftIds h.rightIds h.rx h.tx)
    | abort w => exact .abort w
  exact htopics.andThen (fun _ b b' hb => hb.send hs _)

/-- The state of a session makes no difference to the handling of a PUBLISH or a SUBSCRIBE: the
result, the topics and the queues to the clients are as with any other state, connected or not. -/
theorem handle_ignores_state {b : PicoBroker T P Q S M B} {packet : Packet T P}
    (h : Reachable next new broker) (hv : (b,s,packet) ∈ handledIn broker)
    (hpacket : (∃ publish, packet = .publish publish) ∨ ∃ subscribe, packet = .subscribe subscribe)
    (state : SessionState) : (handleQueued (s,packet) b).Alike
      (fun b₁ b₂ => b₂.topics = b₁.topics ∧ ∀ t, b₂.tx t = b₁.tx t)
      (handleQueued (s,packet) (b.setState s state)) := by
  obtain ⟨hc,hs⟩ := (consistent_of_reachable h).mem_handledIn hv
  have hsame := hc.sameQueues_setState s state
  have halike : (handleQueued (s,packet) b).Alike (SameQueues b.sessions.toMap.ids)
      (handleQueued (s,packet) (b.setState s state)) := by
    apply (hsame.dequeueRx hs).andThen
    intro _ b₁ b₂ hb
    obtain ⟨publish,rfl⟩ | ⟨subscribe,rfl⟩ := hpacket
    · exact hb.handlePublish hs publish
    · exact hb.handleSubscribe hs subscribe
  apply halike.imp
  intro b₁ b₂ hb
  exact ⟨hb.topics,fun t => congrFun hb.tx t⟩

/-- Session 1 has not connected when its SUBSCRIBE is handled. -/
theorem handle_ignores_state_connecting : (handleQueued
    (1,.subscribe ⟨7,⟨1,[0x61],rfl,le_rfl,by decide⟩,.atMostOnce⟩) subscribeQueued).Alike
      (fun b₁ b₂ => b₂.topics = b₁.topics ∧ ∀ t, b₂.tx t = b₁.tx t)
      (handleQueued (1,.subscribe ⟨7,⟨1,[0x61],rfl,le_rfl,by decide⟩,.atMostOnce⟩)
        (subscribeQueued.setState 1 .connected)) :=
  handle_ignores_state (reachable_of_exec (Option.some_get (by decide)).symm)
    (show (subscribeQueued,1,_) ∈ handledIn subscribeQueued by decide) (.inr ⟨_,rfl⟩) .connected

/-- A session that has not connected subscribes. -/
theorem unconnected_subscribes : ¬ ∀ broker : PicoBroker 1 1 2 2 1 2, Reachable next new broker →
    ∀ b s packet, (b,s,packet) ∈ handledIn broker →
      ((∃ publish, packet = .publish publish) ∨ ∃ subscribe, packet = .subscribe subscribe) →
      b.stateOf s ≠ some .connected → ∀ b' ∈ (handleQueued (s,packet) b).state?,
        b'.topics = b.topics ∧ ∀ t, t ≠ s → b'.tx t = b.tx t := by
  intro hall
  have hsame := hall subscribeQueued (reachable_of_exec (Option.some_get (by decide)).symm)
    subscribeQueued 1 (.subscribe ⟨7,⟨1,[0x61],rfl,le_rfl,by decide⟩,.atMostOnce⟩) (by decide)
    (.inr ⟨_,rfl⟩) (by decide) _ (Option.some_get (by decide)).symm
  have htopics := hsame.1
  revert htopics
  decide

/-- The state that handling a packet sets. -/
def marks : Packet T P → Option SessionState
  | .connect _ => some .connected
  | .disconnect _ => some .disconnected
  | _ => none

lemma noted_state (packet : Packet T P) (profile : Profile) :
    (noted packet profile).state = (marks packet).getD profile.state := by
  cases packet <;> rfl

lemma Consistent.stateOf_eq (h : broker.Consistent m) (t : ℕ) :
    broker.stateOf t = (m.profile t).map (·.state) := by
  rw [← h.toMap_eq,SessionRegistry.toMap,Option.map_map]
  rfl

lemma Consistent.stateOf_of_profile (h : broker.Consistent m) (h' : broker'.Consistent m')
    (hp : m'.profile = m.profile) (t : ℕ) : broker'.stateOf t = broker.stateOf t := by
  rw [h.stateOf_eq,h'.stateOf_eq,hp]

/-- A handler sets the state of its session as the packet says, also when it fails later, and no
other. -/
lemma Consistent.handlePacket_state (h : broker.Consistent m) (hs : s ∈ m.ids) (packet : Packet T P)
    (t : ℕ) : (handlePacket s packet broker).Leaves (fun b =>
      b.stateOf t = if t = s then (marks packet).or (broker.stateOf t) else broker.stateOf t) := by
  have hstate : ∀ {b : PicoBroker T P Q S M B} {sent : ℕ → List (Packet T P)},
      b.After m s packet sent → b.stateOf t =
        if t = s then (marks packet).or (broker.stateOf t) else broker.stateOf t := by
    intro b sent after
    rw [after.frames.consistent.stateOf_eq,h.stateOf_eq,after.profile,SessionMap.setProfile_profile]
    split_ifs with hts
    · obtain ⟨session,-,-,-,hprofile,-⟩ := h.shows.find hs
      rw [hts,hprofile,Option.map_some,Option.map_some,Option.map_some,noted_state,Option.or_some]
    · rfl
  have hc := h.handles hs packet
  generalize handlePacket s packet broker = o at hc ⊢
  cases hc with
  | done after => exact Outcome.leaves_ok.mpr (hstate after)
  | failed after => exact Outcome.leaves_err.mpr (hstate after)
  | panicked => exact Outcome.leaves_abort _ _

/-- The same of a turn. -/
lemma Consistent.handleQueued_state (h : broker.Consistent m) {x : ℕ × Packet T P} (hx : x.1 ∈ m.ids)
    (t : ℕ) : (handleQueued x broker).Leaves (fun b =>
      b.stateOf t = if t = x.1 then (marks x.2).or (broker.stateOf t) else broker.stateOf t) := by
  obtain ⟨b,-,hc,hrun⟩ := h.handleQueued_run hx
  rw [hrun,← h.stateOf_of_profile hc rfl t]
  exact hc.handlePacket_state hx x.2 t

/-- The handled packet is a CONNECT of the session. -/
def Connecting (s : ℕ) (v : PicoBroker T P Q S M B × (ℕ × Packet T P)) : Prop :=
  v.2.1 = s ∧ ∃ connect, v.2.2 = .connect connect

lemma Consistent.mem_ids_of_stateOf (h : broker.Consistent m) {state : SessionState}
    (hs : broker.stateOf s = some state) : s ∈ m.ids := by
  by_contra hn
  rw [h.stateOf_eq,(h.shows.find_none hn).2.1] at hs
  cases hs

/-- Processing leaves a disconnected session disconnected if it handles no CONNECT of it. -/
lemma Consistent.processAllSessionPackets_disconnected (h : broker.Consistent m)
    (hs : broker.stateOf s = some .disconnected)
    (hconnect : ∀ v ∈ handledIn broker, ¬ Connecting s v) :
    (processAllSessionPackets broker).Leaves (fun b => b.stateOf s = some .disconnected) := by
  rw [h.processAllSessionPackets_eq]
  have hloop : (Proc.forEach handleQueued broker.queued broker).Leaves (fun b =>
      (b.Consistent b.sessions.toMap ∧ b.sessions.toMap.ids = m.ids) ∧
        b.stateOf s = some .disconnected) := by
    refine Proc.forEach_leaves_of_turns (I := fun b : PicoBroker T P Q S M B =>
      (b.Consistent b.sessions.toMap ∧ b.sessions.toMap.ids = m.ids) ∧
        b.stateOf s = some .disconnected) ?_ ⟨h.self,hs⟩
    intro v hv hb
    obtain ⟨hc,hmem⟩ := h.mem_handledIn hv
    have hkeep := keeps_handleQueued (hb.1.2 ▸ hmem) v.1 hb.1
    refine hkeep.and ((hc.handleQueued_state hmem s).imp ?_)
    intro b' hstate
    rw [hstate,hb.2]
    split_ifs with hsv
    · -- a packet of the session itself, and not a CONNECT
      cases hp : v.2.2 with
      | connect connect => exact absurd ⟨hsv.symm,connect,hp⟩ (hconnect v hv)
      | _ => rfl
    · rfl
  exact hloop.imp (fun _ hb => hb.2)

/-- Noting the time of an activity keeps every state. -/
lemma profile_noted (m : SessionMap T P) (id currentTime s : ℕ) :
    ((m.setProfile id (fun p => { p with lastActivity := currentTime })).profile s).map (·.state) =
      (m.profile s).map (·.state) := by
  rw [SessionMap.setProfile_profile]
  split_ifs
  · rw [Option.map_map]
    rfl
  · rfl

/-- A call leaves a disconnected session disconnected, unless it removes it or handles a CONNECT of
it. -/
lemma Consistent.next_disconnected {call : Call T P} (h : broker.Consistent m)
    (hn : broker.next call = some broker') (hs : broker.stateOf s = some .disconnected)
    (hrem : call ≠ .removeSession s) (hconnect : ∀ v ∈ handledBy (broker,call), ¬ Connecting s v) :
    broker'.stateOf s = some .disconnected := by
  by_cases hproc : call = .processAllSessionPackets
  · subst hproc
    exact h.processAllSessionPackets_disconnected hs hconnect broker' hn
  have hmem := h.mem_ids_of_stateOf hs
  obtain ⟨m',hc,heffect⟩ := h.effect hn hproc
  rw [h.stateOf_eq] at hs
  rw [hc.stateOf_eq]
  cases heffect with
  | refused _ _ => exact hs
  | registered fresh _ =>
    rw [SessionMap.add_profile,if_neg]
    · exact hs
    · intro he
      apply fresh
      rw [← he]
      exact hmem
  | disconnected _ =>
    rw [SessionMap.setProfile_profile]
    split_ifs
    · obtain ⟨p,hp,-⟩ := Option.map_eq_some_iff.mp hs
      rw [hp]
      rfl
    · exact hs
  | removed id =>
    rw [SessionMap.remove_profile,if_neg]
    · exact hs
    · intro he
      apply hrem
      rw [he]
  | noted _ _ => exact (profile_noted m _ _ s).trans hs
  | received _ _ => exact (profile_noted m _ _ s).trans hs
  | taken _ _ => exact hs

/-- A disconnected session stays disconnected and listed over any run that neither removes it nor
handles a CONNECT of it. A CONNECT makes its session connected, whatever its state was. -/
theorem disconnected_until_connect {start : PicoBroker T P Q S M B} (h : Reachable next new start) :
    (start.stateOf s = some .disconnected → ∀ since broker, Run next start since broker →
      (∀ e ∈ since, e.2 ≠ .removeSession s) → (∀ v ∈ since.flatMap handledBy, ¬ Connecting s v) →
      broker.stateOf s = some .disconnected ∧ s ∈ broker.getDisconnectedSessions.reduceOption) ∧
    ∀ b connect, (b,s,.connect connect) ∈ handledIn start →
      (handleQueued (s,.connect connect) b).Leaves (fun b' => b'.stateOf s = some .connected) := by
  have hc := consistent_of_reachable h
  constructor
  · intro hs since broker hrun hkept hconnect
    have step : ∀ (b : PicoBroker T P Q S M B) (call : Call T P) (b' : PicoBroker T P Q S M B),
        (b.Consistent b.sessions.toMap ∧ b.stateOf s = some .disconnected) →
        (call ≠ .removeSession s ∧ ∀ v ∈ handledBy (b,call), ¬ Connecting s v) →
        next b call = some b' →
        b'.Consistent b'.sessions.toMap ∧ b'.stateOf s = some .disconnected := by
      intro b call b' hb hok hn
      exact ⟨hb.1.next hn,hb.1.next_disconnected hn hb.2 hok.1 hok.2⟩
    obtain ⟨hb,hstate⟩ := hrun.invariant_of_mem (I := fun b : PicoBroker T P Q S M B =>
      b.Consistent b.sessions.toMap ∧ b.stateOf s = some .disconnected) step ⟨hc,hs⟩
      (fun e he => ⟨hkept e he,fun v hv => hconnect v (List.mem_flatMap.mpr ⟨e,he,hv⟩)⟩)
    refine ⟨hstate,?_⟩
    rw [getDisconnectedSessions,hb.shows.getDisconnectedSessions_eq,List.mem_filter]
    refine ⟨hb.mem_ids_of_stateOf hstate,?_⟩
    rw [hb.stateOf_eq,Option.map_eq_some_iff] at hstate
    obtain ⟨p,hp,hdisconnected⟩ := hstate
    rw [hp,Option.any_some,decide_eq_true_eq]
    exact hdisconnected
  · intro b connect hv
    obtain ⟨hb,hmem⟩ := hc.mem_handledIn hv
    refine (hb.handleQueued_state hmem s).imp ?_
    intro b' hstate
    rw [hstate,if_pos rfl]
    rfl

/-- Session 1 was marked disconnected, and then a CONNECT of it arrived. -/
def resumeConnect : ConnectPacket 1 1 := ⟨.cleanSession,60,.new,none,none,none,none⟩
def resumeStart : PicoBroker 1 1 1 1 1 1 := (exec next new
  [.registerNewSession 1 60 0,.markSessionDisconnected 1,
    .queuePacketReceivedFromClient 1 (.connect resumeConnect) 1]).get (by decide)
def resumed : PicoBroker 1 1 1 1 1 1 :=
  (exec next resumeStart [.processAllSessionPackets]).get (by decide)

theorem disconnected_until_connect_resumed :
    (resumeStart.stateOf 1 = some .disconnected → ∀ since broker, Run next resumeStart since broker →
      (∀ e ∈ since, e.2 ≠ .removeSession 1) → (∀ v ∈ since.flatMap handledBy, ¬ Connecting 1 v) →
      broker.stateOf 1 = some .disconnected ∧ 1 ∈ broker.getDisconnectedSessions.reduceOption) ∧
    ∀ b connect, (b,1,.connect connect) ∈ handledIn resumeStart →
      (handleQueued (1,.connect connect) b).Leaves (fun b' => b'.stateOf 1 = some .connected) :=
  disconnected_until_connect (reachable_of_exec (Option.some_get (by decide)).symm)

/-- The CONNECT makes the session connected again. -/
theorem disconnected_resumes : ¬ ∀ (start broker : PicoBroker 1 1 1 1 1 1) (s : ℕ)
    (since : List (PicoBroker 1 1 1 1 1 1 × Call 1 1)), Reachable next new start →
    start.stateOf s = some .disconnected → Run next start since broker →
    (∀ e ∈ since, e.2 ≠ .removeSession s) → broker.stateOf s = some .disconnected := by
  intro hall
  have hstate := hall resumeStart resumed 1 (trace next resumeStart [.processAllSessionPackets])
    (reachable_of_exec (Option.some_get (by decide)).symm) (by decide)
    (run_trace (Option.some_get (by decide)).symm) (by decide)
  revert hstate
  decide

end PicoBroker

end Picobroker
