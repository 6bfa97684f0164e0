import Picobroker.Broker.Failures
import Picobroker.Broker.Removal

/-! Where the subscriptions of a session come from, and what is sent because of them: a SUBSCRIBE adds
its filter for good, an UNSUBSCRIBE takes nothing away, and a PUBLISH is forwarded as it came. -/
namespace Picobroker
open Rust

variable {T P Q S M B : ℕ}

namespace PicoBroker

/-- The handled packet is a SUBSCRIBE of the session for the filter. -/
def AsksFor (s : ℕ) (f : TopicName T) (v : PicoBroker T P Q S M B × (ℕ × Packet T P)) : Prop :=
  v.2.1 = s ∧ ∃ subscribe, v.2.2 = .subscribe subscribe ∧ subscribe.topicFilter = f

variable {broker : PicoBroker T P Q S M B} {m : SessionMap T P} {s t : ℕ} {f : TopicName T}

/-- A handler that succeeds adds at most the filter of a SUBSCRIBE to the topics. -/
lemma Consistent.handlePacket_relation (h : broker.Consistent m) (hs : s ∈ m.ids)
    {packet : Packet T P} {broker' : PicoBroker T P Q S M B} {u : Unit}
    (hok : handlePacket s packet broker = .ok u broker') (t : ℕ) (f : TopicName T) :
    (t,f) ∈ broker'.topics.relation ↔
      (t,f) ∈ broker.topics.relation ∨ AsksFor t f (broker,s,packet) := by
  have hc := h.handles hs packet
  rw [hok] at hc
  cases hc with
  | done _ grants =>
    cases packet with
    | subscribe subscribe =>
      rw [TopicRegistry.relation_subscribe grants,Finset.mem_insert,Prod.mk.injEq,or_comm]
      apply or_congr_right
      constructor
      · intro ⟨hts,hf⟩
        exact ⟨hts.symm,subscribe,rfl,hf.symm⟩
      · intro ⟨hts,subscribe',he,hf⟩
        cases he
        exact ⟨hts.symm,hf.symm⟩
    | _ =>
      have htopics : broker'.topics = broker.topics := grants
      rw [htopics,or_iff_left]
      intro ⟨_,_,he,_⟩
      cases he

/-- Processing that succeeds adds the filters of the SUBSCRIBEs it handled. -/
lemma Consistent.processAllSessionPackets_relation (h : broker.Consistent m)
    {broker' : PicoBroker T P Q S M B} (hok : processAllSessionPackets broker = .ok () broker')
    (s : ℕ) (f : TopicName T) : (s,f) ∈ broker'.topics.relation ↔
      (s,f) ∈ broker.topics.relation ∨ ∃ v ∈ handledIn broker, AsksFor s f v := by
  rw [h.processAllSessionPackets_eq] at hok
  have step : ∀ x ∈ broker.queued, ∀ (b b' : PicoBroker T P Q S M B) (u : Unit),
      (b.Consistent b.sessions.toMap ∧ b.sessions.toMap.ids = m.ids) → handleQueued x b = .ok u b' →
      (b'.Consistent b'.sessions.toMap ∧ b'.sessions.toMap.ids = m.ids) ∧
        ((s,f) ∈ b'.topics.relation ↔ (s,f) ∈ b.topics.relation ∨ AsksFor s f (b,x)) := by
    intro x hx b b' u hb hstep
    obtain ⟨hkeep,hmem⟩ := h.handleQueued_keeps hx hb hstep
    refine ⟨hkeep,?_⟩
    obtain ⟨b₁,ht,hc,hrun⟩ := hb.1.handleQueued_run hmem
    rw [hrun] at hstep
    have hrelation := hc.handlePacket_relation hmem hstep s f
    rw [ht] at hrelation
    exact hrelation
  exact Proc.forEach_gains (I := fun b : PicoBroker T P Q S M B =>
    b.Consistent b.sessions.toMap ∧ b.sessions.toMap.ids = m.ids)
    (H := fun b => (s,f) ∈ b.topics.relation) step h.self hok

/-- The other calls leave the subscriptions of a session alone, unless they remove it. -/
lemma Consistent.next_relation {call : Call T P} {broker' : PicoBroker T P Q S M B}
    (h : broker.Consistent m) (hn : broker.next call = some broker')
    (hproc : call ≠ .processAllSessionPackets) (hrem : call ≠ .removeSession s) (f : TopicName T) :
    (s,f) ∈ broker'.topics.relation ↔ (s,f) ∈ broker.topics.relation := by
  obtain ⟨m',-,heffect⟩ := h.effect hn hproc
  cases heffect with
  | refused _ _ => rfl
  | removed id =>
    have hid : s ≠ id := by
      intro he
      apply hrem
      rw [he]
    change (s,f) ∈ (broker.topics.unregisterAll id).2.relation ↔ _
    rw [(h.topics.relation_unregisterAll id).1,Finset.mem_filter,and_iff_left hid]
  | registered _ topics => rw [topics]
  | disconnected topics => rw [topics]
  | noted topics _ => rw [topics]
  | received topics _ => rw [topics]
  | taken topics _ => rw [topics]

/-- A session matches a topic when one of its filters does. -/
lemma matched_iff {topics : TopicRegistry T M B} {topic : TopicName T} :
    topics.Matched topic s ↔
      ∃ f, (s,f) ∈ topics.relation ∧ topicMatches topic.asStr f.asStr = true := by
  constructor
  · intro ⟨entry,he,hmatch,hs⟩
    exact ⟨entry.topicName,TopicRegistry.mem_relation.mpr ⟨entry,he,rfl,hs⟩,hmatch⟩
  · intro ⟨f,hf,hmatch⟩
    obtain ⟨entry,he,rfl,hs⟩ := TopicRegistry.mem_relation.mp hf
    exact ⟨entry,he,hmatch,hs⟩

section Since

variable {before registered : PicoBroker T P Q S M B} {keepAliveSecs : UInt16} {currentTime : ℕ}
  {since : List (PicoBroker T P Q S M B × Call T P)}

/-- The filters of a session are those of the SUBSCRIBEs that were handled for it since its
registration, whatever UNSUBSCRIBEs were handled, and it matches the topics that they match. -/
theorem subscribed_iff (hbefore : Reachable next new before)
    (hregister : registerNewSession s keepAliveSecs currentTime before = .ok () registered)
    (hrun : Run next registered since broker) (hsince : CleanSince s since) :
    (∀ f, (s,f) ∈ broker.topics.relation ↔ ∃ v ∈ since.flatMap handledBy, AsksFor s f v) ∧
    ∀ topic, broker.topics.Matched topic s ↔ ∃ f, (∃ v ∈ since.flatMap handledBy, AsksFor s f v) ∧
      topicMatches topic.asStr f.asStr = true := by
  have hb := consistent_of_reachable hbefore
  obtain ⟨hc,-,-⟩ := hb.of_registerNewSession hregister
  have hnone := (hb.registerNewSession_ok hregister).2
  have hfilters : ∀ f, (s,f) ∈ broker.topics.relation ↔
      ∃ v ∈ since.flatMap handledBy, AsksFor s f v := by
    intro f
    have step : ∀ (b : PicoBroker T P Q S M B) (call : Call T P) (b' : PicoBroker T P Q S M B),
        b.Consistent b.sessions.toMap → (call ≠ .removeSession s ∧
          (call = .processAllSessionPackets → ∃ b'', processAllSessionPackets b = .ok () b'')) →
        next b call = some b' → ((s,f) ∈ b'.topics.relation ↔
          (s,f) ∈ b.topics.relation ∨ ∃ v ∈ handledBy (b,call), AsksFor s f v) := by
      intro b call b' hb hok hn
      by_cases hproc : call = .processAllSessionPackets
      · subst hproc
        exact hb.processAllSessionPackets_relation (processAllSessionPackets_ok (hok.2 rfl) hn) s f
      · rw [hb.next_relation hn hproc hok.1,handledBy_eq_nil hproc]
        simp
    have hgains := hrun.gains (H := fun b => (s,f) ∈ b.topics.relation) keeps_next step hc
      (fun e he => hsince.call he)
    rw [hgains,or_iff_right (hnone f)]
    simp only [List.mem_flatMap]
    constructor
    · intro ⟨e,he,v,hv,hasks⟩
      exact ⟨v,⟨e,he,hv⟩,hasks⟩
    · intro ⟨v,⟨e,he,hv⟩,hasks⟩
      exact ⟨e,he,v,hv,hasks⟩
  refine ⟨hfilters,?_⟩
  intro topic
  rw [matched_iff]
  apply exists_congr
  intro f
  rw [hfilters]

end Since

/-- Whether a packet asks to have the filter (`true`) or to lose it (`false`). -/
def request (f : TopicName T) : Packet T P → Option Bool
  | .subscribe subscribe => if subscribe.topicFilter = f then some true else none
  | .unsubscribe unsubscribe => if unsubscribe.topicFilter = f then some false else none
  | _ => none

/-- The last handled request of the session for the filter. -/
def lastRequest (s : ℕ) (f : TopicName T)
    (handled : List (PicoBroker T P Q S M B × (ℕ × Packet T P))) : Option Bool :=
  ((handled.filterMap (ownPacket s)).filterMap (request f)).getLast?

/-- The call returned `Ok`. -/
def succeeded (e : PicoBroker T P Q S M B × Call T P) : Bool :=
  match e.2 with
  | .registerNewSession sessionId keepAliveSecs currentTime =>
    (registerNewSession sessionId keepAliveSecs currentTime e.1).isOk
  | .markSessionDisconnected sessionId => (markSessionDisconnected sessionId e.1).isOk
  | .removeSession _ => true
  | .queuePacketReceivedFromClient sessionId packet currentTime =>
    (queuePacketReceivedFromClient sessionId packet currentTime e.1).isOk
  | .dequeuePacketToSendToClient sessionId => (dequeuePacketToSendToClient sessionId e.1).isOk
  | .processAllSessionPackets => (processAllSessionPackets e.1).isOk

/-- Session 1 subscribes to `a` and unsubscribes from it. -/
def unsubscribeCalls : List (Call 1 1) :=
  [.queuePacketReceivedFromClient 1 (.subscribe subscribeA) 1,
    .queuePacketReceivedFromClient 1 (.unsubscribe ⟨8,topicA⟩) 1,
    .processAllSessionPackets]

def unsubscribed : PicoBroker 1 1 2 2 1 2 :=
  (exec next publishRegistered unsubscribeCalls).get (by decide)

lemma unsubscribe_run : Run next publishRegistered (trace next publishRegistered unsubscribeCalls)
    unsubscribed := run_trace (Option.some_get (by decide)).symm

/-- After the UNSUBSCRIBE the session still has the filter. -/
theorem subscribed_iff_unsubscribed :
    (∀ f, (1,f) ∈ unsubscribed.topics.relation ↔
      ∃ v ∈ (trace next publishRegistered unsubscribeCalls).flatMap handledBy, AsksFor 1 f v) ∧
    ∀ topic, unsubscribed.topics.Matched topic 1 ↔
      ∃ f, (∃ v ∈ (trace next publishRegistered unsubscribeCalls).flatMap handledBy,
        AsksFor 1 f v) ∧ topicMatches topic.asStr f.asStr = true :=
  subscribed_iff (Reachable.refl next new)
    (show registerNewSession 1 60 0 new = .ok () publishRegistered by decide) unsubscribe_run
    ⟨by decide,by decide⟩

/-- The last request of the session was to lose the filter. -/
theorem unsubscribe_ignored : ¬ ∀ (before registered broker : PicoBroker 1 1 2 2 1 2) (s : ℕ)
    (keepAliveSecs : UInt16) (currentTime : ℕ)
    (since : List (PicoBroker 1 1 2 2 1 2 × Call 1 1)), Reachable next new before →
    registerNewSession s keepAliveSecs currentTime before = .ok () registered →
    Run next registered since broker → (∀ e ∈ since, e.2 ≠ .removeSession s) →
    (∀ e ∈ since, succeeded e = true) → ∀ f, (s,f) ∈ broker.topics.relation ↔
      lastRequest s f (since.flatMap handledBy) = some true := by
  intro hall
  have hlaw := hall new publishRegistered unsubscribed 1 60 0 _ (Reachable.refl next new)
    (show registerNewSession 1 60 0 new = .ok () publishRegistered by decide) unsubscribe_run
    (by decide) (by decide) ⟨1,[0x61],rfl,le_rfl,by decide⟩
  have hmem : (1,⟨1,[0x61],rfl,le_rfl,by decide⟩) ∈ unsubscribed.topics.relation := by decide
  have hlast := hlaw.mp hmem
  revert hlast
  decide

/-- An answer that is a SUBACK answers a SUBSCRIBE and grants the QoS that it requests. -/
lemma subAck_of_mem_response {packet : Packet T P} {subAck : SubAckPacket}
    (ha : .subAck subAck ∈ response packet) : ∃ subscribe, packet = .subscribe subscribe ∧
      subAck.grantedQos = subscribe.requestedQos := by
  cases packet with
  | subscribe subscribe =>
    have he := List.mem_singleton.mp ha
    cases he
    exact ⟨subscribe,rfl,rfl⟩
  | publish publish =>
    rw [response_publish,pubAckOf] at ha
    split_ifs at ha
    · cases hid : publish.packetId with
      | none =>
        rw [hid] at ha
        cases ha
      | some packetId =>
        rw [hid] at ha
        have he := List.mem_singleton.mp ha
        cases he
    · cases ha
  | connect | pingReq =>
    have he := List.mem_singleton.mp ha
    cases he
  | _ => cases ha

/-- A PUBLISH that a handler puts into a queue is the one it handles, with the QoS of the publisher,
and a SUBACK grants the QoS that was requested. -/
theorem delivered_qos {b b' : PicoBroker T P Q S M B} {packet : Packet T P}
    (h : Reachable next new broker) (hv : (b,s,packet) ∈ handledIn broker)
    (hb' : (handleQueued (s,packet) b).state? = some b') (t : ℕ) :
    ∃ sent, b'.tx t = b.tx t ++ sent ∧
      (∀ publish, .publish publish ∈ sent → packet = .publish publish) ∧
      ∀ subAck, .subAck subAck ∈ sent → t = s ∧ ∃ subscribe, packet = .subscribe subscribe ∧
        subAck.grantedQos = subscribe.requestedQos := by
  obtain ⟨hc,hs⟩ := (consistent_of_reachable h).mem_handledIn hv
  obtain ⟨sent,htx,hsent⟩ := hc.handleQueued_tx hs hb' t
  refine ⟨sent,htx,?_,?_⟩
  · intro publish hp
    obtain hp | hp := List.mem_append.mp (hsent.subset hp)
    · obtain ⟨publish',hpacket,he⟩ := mem_forwarded hp
      exact hpacket.trans he.symm
    · have hnone : (Packet.publish publish : Packet T P).publish? = none :=
        publish?_of_mem_answered hp
      cases hnone
  · intro subAck ha
    obtain ha | ha := List.mem_append.mp (hsent.subset ha)
    · obtain ⟨publish,-,he⟩ := mem_forwarded ha
      cases he
    · split_ifs at ha with hts
      · exact ⟨hts,subAck_of_mem_response ha⟩
      · cases ha

/-- The QoS that the SUBACK of a handled SUBSCRIBE grants to the session, if its filter matches. -/
def granted (s : ℕ) (topic : TopicName T) (v : PicoBroker T P Q S M B × (ℕ × Packet T P)) :
    Option QoS :=
  match v.2.2,answered s v with
  | .subscribe subscribe,[.subAck subAck] =>
    if topicMatches topic.asStr subscribe.topicFilter.asStr then some subAck.grantedQos else none
  | _,_ => none

/-- Session 1 subscribes to `a` with QoS 0 and publishes to it with QoS 1. -/
def urgentPublish : PublishPacket 1 1 :=
  ⟨topicA,some 8,.new,.atLeastOnce,false,false⟩
def urgentCalls : List (Call 1 1) :=
  [.queuePacketReceivedFromClient 1 (.subscribe subscribeA) 1,
    .processAllSessionPackets,.dequeuePacketToSendToClient 1,
    .queuePacketReceivedFromClient 1 (.publish urgentPublish) 1]

/-- The broker before the PUBLISH is handled, and after. -/
def urgentQueued : PicoBroker 1 1 2 2 1 2 :=
  (exec next publishRegistered urgentCalls).get (by decide)
def urgentProcessed : PicoBroker 1 1 2 2 1 2 :=
  (exec next publishRegistered (urgentCalls ++ [.processAllSessionPackets])).get (by decide)

lemma urgentQueued_reachable : Reachable next new urgentQueued :=
  reachable_of_exec (show exec next new (.registerNewSession 1 60 0::urgentCalls) =
    some urgentQueued by decide)

/-- The PUBLISH goes out with QoS 1. -/
theorem delivered_qos_urgent : ∃ sent, urgentProcessed.tx 1 = urgentQueued.tx 1 ++ sent ∧
    (∀ publish, .publish publish ∈ sent → Packet.publish urgentPublish = .publish publish) ∧
    ∀ subAck, .subAck subAck ∈ sent → 1 = 1 ∧ ∃ subscribe,
      Packet.publish urgentPublish = .subscribe subscribe ∧
        subAck.grantedQos = subscribe.requestedQos :=
  delivered_qos urgentQueued_reachable
    (show (urgentQueued,1,.publish urgentPublish) ∈ handledIn urgentQueued by decide)
    (show (handleQueued (1,.publish urgentPublish) urgentQueued).state? = some urgentProcessed by
      decide) 1

/-- QoS 0 was granted, and QoS 1 is delivered. -/
theorem delivered_qos_above_granted : ¬ ∀ (before registered broker : PicoBroker 1 1 2 2 1 2) (s : ℕ)
    (keepAliveSecs : UInt16) (currentTime : ℕ)
    (since : List (PicoBroker 1 1 2 2 1 2 × Call 1 1)), Reachable next new before →
    registerNewSession s keepAliveSecs currentTime before = .ok () registered →
    Run next registered since broker → (∀ e ∈ since, e.2 ≠ .removeSession s) →
    ∀ publish, .publish publish ∈ broker.tx s →
      ∃ qos ∈ (since.flatMap handledBy).filterMap (granted s publish.topicName),
        publish.qos.toU8 ≤ qos.toU8 := by
  intro hall
  have hqos := hall new publishRegistered urgentProcessed 1 60 0 _ (Reachable.refl next new)
    (show registerNewSession 1 60 0 new = .ok () publishRegistered by decide)
    (run_trace (Option.some_get (by decide)).symm) (by decide) urgentPublish (by decide)
  revert hqos
  decide

end PicoBroker

end Picobroker
