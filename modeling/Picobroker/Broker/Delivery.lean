import Picobroker.Broker.Invariant

/-! Accounting for the queues over whole runs: every packet that a handler sends to a session is
dequeued for it once, in order, or still waits. -/
namespace Picobroker
open Rust

variable {T P Q S M B : ℕ}

/-- The PUBLISH that a packet is. -/
def Packet.publish? : Packet T P → Option (PublishPacket T P)
  | .publish packet => some packet
  | _ => none

namespace PicoBroker

/-- A session's own packet among the handled ones. -/
def ownPacket (s : ℕ) (v : PicoBroker T P Q S M B × (ℕ × Packet T P)) : Option (Packet T P) :=
  if v.2.1 = s then some v.2.2 else none

/-- The packets that a call handles. -/
def handledBy (e : PicoBroker T P Q S M B × Call T P) :
    List (PicoBroker T P Q S M B × (ℕ × Packet T P)) :=
  match e.2 with
  | .processAllSessionPackets => handledIn e.1
  | _ => []

/-- The run since the session `s` was registered: it was not removed, and no processing failed. -/
structure CleanSince (s : ℕ) (since : List (PicoBroker T P Q S M B × Call T P)) : Prop where
  kept : ∀ e ∈ since, e.2 ≠ .removeSession s
  clean : ∀ e ∈ since, e.2 = .processAllSessionPackets →
    ∃ broker', processAllSessionPackets e.1 = .ok () broker'

variable {broker : PicoBroker T P Q S M B} {m : SessionMap T P} {s : ℕ}

/-- A turn appends the output of its packet. -/
lemma Consistent.handleQueued_ok (h : broker.Consistent m) {x : ℕ × Packet T P} (hx : x.1 ∈ m.ids)
    {broker' : PicoBroker T P Q S M B} {u : Unit} (hok : handleQueued x broker = .ok u broker')
    (t : ℕ) : broker'.tx t = broker.tx t ++ output t (broker,x) := by
  obtain ⟨b,ht,hc,hrun⟩ := h.handleQueued_run hx
  rw [hrun] at hok
  rw [hc.handlePacket_ok hx hok t,h.tx_eq]
  have hforward : forwarded b x.2 t = forwarded broker x.2 t := by
    unfold forwarded
    rw [ht]
  simp only [output,hforward,SessionMap.setRx_tx]

/-- Processing that succeeds appends the outputs of the handled packets in order. -/
lemma Consistent.processAllSessionPackets_tx (h : broker.Consistent m)
    {broker' : PicoBroker T P Q S M B} (hok : processAllSessionPackets broker = .ok () broker')
    (s : ℕ) : broker'.tx s = broker.tx s ++ (handledIn broker).flatMap (output s) := by
  rw [h.processAllSessionPackets_eq] at hok
  have step : ∀ x ∈ broker.queued, ∀ (b b' : PicoBroker T P Q S M B) (u : Unit),
      (b.Consistent b.sessions.toMap ∧ b.sessions.toMap.ids = m.ids) → handleQueued x b = .ok u b' →
      (b'.Consistent b'.sessions.toMap ∧ b'.sessions.toMap.ids = m.ids) ∧
        b'.tx s = b.tx s ++ output s (b,x) := by
    intro x hx b b' u hb hstep
    obtain ⟨hkeep,hmem⟩ := h.handleQueued_keeps hx hb hstep
    exact ⟨hkeep,hb.1.handleQueued_ok hmem hstep s⟩
  exact Proc.forEach_appends step h.self hok

/-- Processing that succeeds handles what waited for the session and leaves nothing. -/
lemma Consistent.processAllSessionPackets_rx (h : broker.Consistent m)
    {broker' : PicoBroker T P Q S M B} (hok : processAllSessionPackets broker = .ok () broker')
    (s : ℕ) : broker.rx s ++ [] = (handledIn broker).filterMap (ownPacket s) ++ broker'.rx s := by
  have hleaves := h.forEach_handleQueued h.queued_eq.symm
  rw [h.processAllSessionPackets_eq] at hok
  have hall : (handledIn broker).map Prod.snd = broker.queued := Proc.turns_map_snd hok
  rw [hok,Outcome.leaves_ok] at hleaves
  obtain ⟨hc,hids,hq⟩ := hleaves
  change broker.queued = (handledIn broker).map Prod.snd ++ _ at hq
  rw [hall,List.self_eq_append_right] at hq
  have hrx : ∀ {b : PicoBroker T P Q S M B} {m' : SessionMap T P}, b.Consistent m' →
      m'.queued.filterMap (fun x => if x.1 = s then some x.2 else none) = b.rx s := by
    intro b m' hb
    rw [SessionMap.queued,SessionMap.filterMap_flatMap_rx hb.shows.nodup,hb.rx_eq]
    split_ifs with hs
    · rfl
    · exact (hb.shows.find_none hs).2.2.1.symm
  have hown : (handledIn broker).filterMap (ownPacket s) = broker.rx s := by
    rw [← hrx h,← h.queued_eq,← hall,List.filterMap_map]
    rfl
  rw [hown,← hrx hc,hq]
  rfl

/-- The brokers that the handled packets find are consistent, and their sessions registered. -/
lemma Consistent.mem_handledIn (h : broker.Consistent m)
    {v : PicoBroker T P Q S M B × (ℕ × Packet T P)} (hv : v ∈ handledIn broker) :
    v.1.Consistent v.1.sessions.toMap ∧ v.2.1 ∈ v.1.sessions.toMap.ids := by
  obtain ⟨⟨hc,hids⟩,hx⟩ := Proc.mem_turns (I := fun b : PicoBroker T P Q S M B =>
    b.Consistent b.sessions.toMap ∧ b.sessions.toMap.ids = m.ids) (by
      intro x hx
      rw [h.queued_eq] at hx
      exact keeps_handleQueued (mem_ids_of_mem_queued hx)) h.self hv
  refine ⟨hc,?_⟩
  rw [hids]
  rw [h.queued_eq] at hx
  exact mem_ids_of_mem_queued hx

/-- A call other than processing takes what it dequeues off the front of the queue. -/
lemma Consistent.next_tx {call : Call T P} {broker' : PicoBroker T P Q S M B}
    (h : broker.Consistent m) (hn : broker.next call = some broker')
    (hproc : call ≠ .processAllSessionPackets) (hrem : call ≠ .removeSession s) :
    broker.tx s = dequeuedBy s (broker,call) ++ broker'.tx s := by
  obtain ⟨m',hc,heffect⟩ := h.effect hn hproc
  rw [h.tx_eq,hc.tx_eq]
  cases heffect with
  | refused _ dequeued => rw [dequeued,List.nil_append]
  | @registered id _ _ _ fresh _ =>
    rw [SessionMap.add_tx]
    split_ifs with hid
    · rw [hid,(h.shows.find_none fresh).2.2.2]
      rfl
    · rfl
  | disconnected _ => rfl
  | removed id =>
    rw [SessionMap.remove_tx,if_neg]
    · rfl
    · intro he
      apply hrem
      rw [he]
  | noted _ _ => rfl
  | received _ _ => rfl
  | @taken id _ _ dequeued =>
    rw [dequeued,SessionMap.setTx_tx]
    by_cases hid : id = s
    · rw [if_pos hid,if_pos hid.symm,hid]
      cases m.tx s <;> rfl
    · rw [if_neg hid,if_neg (Ne.symm hid)]
      rfl

/-- A call other than processing puts what it queues at the back of the queue. -/
lemma Consistent.next_rx {call : Call T P} {broker' : PicoBroker T P Q S M B}
    (h : broker.Consistent m) (hn : broker.next call = some broker')
    (hproc : call ≠ .processAllSessionPackets) (hrem : call ≠ .removeSession s) :
    broker.rx s ++ queuedBy s (broker,call) = broker'.rx s := by
  obtain ⟨m',hc,heffect⟩ := h.effect hn hproc
  rw [h.rx_eq,hc.rx_eq]
  cases heffect with
  | refused queued _ => rw [queued,List.append_nil]
  | @registered id _ _ _ fresh _ =>
    rw [SessionMap.add_rx]
    split_ifs with hid
    · rw [hid,(h.shows.find_none fresh).2.2.1]
      rfl
    · exact List.append_nil _
  | disconnected _ => exact List.append_nil _
  | removed id =>
    rw [SessionMap.remove_rx,if_neg]
    · exact List.append_nil _
    · intro he
      apply hrem
      rw [he]
  | noted _ queued => rw [queued,List.append_nil,SessionMap.setProfile_rx]
  | @received id packet _ _ _ queued =>
    rw [queued,SessionMap.setRx_rx,SessionMap.setProfile_rx]
    by_cases hid : id = s
    · rw [if_pos hid,if_pos hid.symm,hid]
    · rw [if_neg hid,if_neg (Ne.symm hid),List.append_nil]
  | taken _ _ => exact List.append_nil _

/-- The PUBLISH that a handled packet brings to the session: it matches at least one of the filters
that the registry holds for it. -/
def matchedPublish (s : ℕ) (v : PicoBroker T P Q S M B × (ℕ × Packet T P)) :
    Option (PublishPacket T P) :=
  v.2.2.publish?.filter (fun publish => v.1.topics.Matched publish.topicName s)

/-- With a place for every session in an entry, nobody who matches is left out. -/
lemma Consistent.getSubscribers_iff (h : broker.Consistent m) (hB : S ≤ B) (topic : TopicName T) :
    ∃ subscribers, broker.topics.getSubscribers topic = some subscribers ∧
      ∀ s, s ∈ subscribers.asSlice ↔ broker.topics.Matched topic s := by
  have hsub : (broker.topics.matching topic).eraseDups ⊆ m.ids := by
    intro s hs
    obtain ⟨entry,he,-,hmem⟩ := TopicRegistry.mem_matching.mp (List.mem_eraseDups.mp hs)
    exact h.registered entry he s hmem
  have hle := (List.subperm_of_subset (nodup_eraseDups _) hsub).length_le
  have hS := h.shows.length_le
  have hlt := h.shows.length_lt
  obtain ⟨v,hv,-⟩ | ⟨-,-,hmany⟩ := broker.topics.getSubscribers_cases topic
  · exact ⟨v,hv,TopicRegistry.mem_getSubscribers_iff hv (by omega)⟩
  · omega

/-- The part of the output that answers a packet of one's own. -/
def answered (s : ℕ) (v : PicoBroker T P Q S M B × (ℕ × Packet T P)) : List (Packet T P) :=
  if s = v.2.1 then response v.2.2 else []

/-- What is forwarded is the handled PUBLISH. -/
lemma mem_forwarded {packet p : Packet T P} (hp : p ∈ forwarded broker packet s) :
    ∃ publish, packet = .publish publish ∧ p = .publish publish := by
  cases packet with
  | publish publish =>
    refine ⟨publish,rfl,?_⟩
    unfold forwarded at hp
    cases hget : broker.topics.getSubscribers publish.topicName with
    | some subscribers =>
      simp only [hget] at hp
      split_ifs at hp
      · exact List.mem_singleton.mp hp
      · cases hp
    | none =>
      simp only [hget] at hp
      cases hp
  | _ => cases hp

lemma publish?_of_mem_answered {v : PicoBroker T P Q S M B × (ℕ × Packet T P)} {p : Packet T P}
    (hp : p ∈ answered s v) : p.publish? = none := by
  unfold answered at hp
  split_ifs at hp
  · cases hv : v.2.2 with
    | publish publish =>
      rw [hv,response_publish,pubAckOf] at hp
      split_ifs at hp
      · cases hid : publish.packetId with
        | none =>
          rw [hid] at hp
          cases hp
        | some packetId =>
          rw [hid] at hp
          have hp' := List.mem_singleton.mp hp
          rw [hp']
          rfl
      · cases hp
    | connect | subscribe | pingReq =>
      rw [hv] at hp
      have hp' := List.mem_singleton.mp hp
      rw [hp']
      rfl
    | _ =>
      rw [hv] at hp
      cases hp
  · cases hp

/-- Of the output to a session, the PUBLISH is the one that matches its filters. -/
lemma Consistent.output_publish {v : PicoBroker T P Q S M B × (ℕ × Packet T P)}
    (h : v.1.Consistent m) (hB : S ≤ B) (s : ℕ) :
    (output s v).filterMap Packet.publish? = (matchedPublish s v).toList := by
  have hanswer : (answered s v).filterMap Packet.publish? = [] := by
    rw [List.filterMap_eq_nil_iff]
    intro p hp
    exact publish?_of_mem_answered hp
  change (forwarded v.1 v.2.2 s ++ answered s v).filterMap Packet.publish? = _
  rw [List.filterMap_append,hanswer,List.append_nil,matchedPublish]
  cases hp : v.2.2 with
  | publish publish =>
    obtain ⟨subscribers,hget,hiff⟩ := h.getSubscribers_iff hB publish.topicName
    simp only [forwarded,hget,hiff,Packet.publish?]
    by_cases hm : v.1.topics.Matched publish.topicName s
    · simp [hm,Packet.publish?,Option.filter]
    · simp [hm,Option.filter]
  | _ => rfl

/-- The other packets of the output answer the session's own packet. -/
lemma output_answers (s : ℕ) (v : PicoBroker T P Q S M B × (ℕ × Packet T P)) :
    (output s v).filter (·.publish?.isNone) = answered s v := by
  have hforward : (forwarded v.1 v.2.2 s).filter (·.publish?.isNone) = [] := by
    rw [List.filter_eq_nil_iff]
    intro p hp
    obtain ⟨publish,-,rfl⟩ := mem_forwarded hp
    exact Bool.false_ne_true
  have hanswer : (answered s v).filter (·.publish?.isNone) = answered s v := by
    rw [List.filter_eq_self]
    intro p hp
    rw [publish?_of_mem_answered hp]
    rfl
  change (forwarded v.1 v.2.2 s ++ answered s v).filter _ = _
  rw [List.filter_append,hforward,hanswer,List.nil_append]

section Accounting

variable {before registered : PicoBroker T P Q S M B} {keepAliveSecs : UInt16} {currentTime : ℕ}
  {since : List (PicoBroker T P Q S M B × Call T P)}

/-- A new session has nothing in its queues. -/
lemma Consistent.of_registerNewSession (h : before.Consistent m)
    (hregister : PicoBroker.registerNewSession s keepAliveSecs currentTime before = .ok () registered) :
    registered.Consistent registered.sessions.toMap ∧ registered.rx s = [] ∧ registered.tx s = [] := by
  obtain ⟨e,hr⟩ | ⟨why,hr⟩ | ⟨b',hr,-,-,hc⟩ := h.registerNewSession s keepAliveSecs currentTime
  · rw [hr] at hregister
    cases hregister
  · rw [hr] at hregister
    cases hregister
  · rw [hr] at hregister
    cases hregister
    refine ⟨hc.self.1,?_,?_⟩
    · rw [hc.rx_eq,SessionMap.add_rx,if_pos rfl]
    · rw [hc.tx_eq,SessionMap.add_tx,if_pos rfl]

/-- What is known of a call of a clean run. -/
lemma CleanSince.call {e : PicoBroker T P Q S M B × Call T P} (h : CleanSince s since)
    (he : e ∈ since) : e.2 ≠ .removeSession s ∧ (e.2 = .processAllSessionPackets →
      ∃ broker', processAllSessionPackets e.1 = .ok () broker') :=
  ⟨h.kept e he,h.clean e he⟩

lemma handledBy_eq_nil {call : Call T P} (h : call ≠ .processAllSessionPackets) :
    handledBy (broker,call) = [] := by
  cases call with
  | processAllSessionPackets => exact absurd rfl h
  | _ => rfl

/-- Processing that does not fail leaves the next broker with `Ok`. -/
lemma processAllSessionPackets_ok {b b' : PicoBroker T P Q S M B}
    (hok : ∃ b'', processAllSessionPackets b = .ok () b'')
    (hn : b.next .processAllSessionPackets = some b') : processAllSessionPackets b = .ok () b' := by
  obtain ⟨b'',hb⟩ := hok
  change b.processAllSessionPackets.state? = some b' at hn
  rw [hb] at hn
  cases hn
  exact hb

/-- What the handlers send to a session is dequeued in order or still waits. -/
lemma Consistent.tx_accounting (h : registered.Consistent registered.sessions.toMap)
    (hempty : registered.tx s = []) (hrun : Run PicoBroker.next registered since broker)
    (hsince : CleanSince s since) :
    since.flatMap (dequeuedBy s) ++ broker.tx s = (since.flatMap handledBy).flatMap (output s) := by
  have step : ∀ (b : PicoBroker T P Q S M B) (call : Call T P) (b' : PicoBroker T P Q S M B),
      b.Consistent b.sessions.toMap → (call ≠ .removeSession s ∧
        (call = .processAllSessionPackets → ∃ b'', PicoBroker.processAllSessionPackets b = .ok () b'')) →
      PicoBroker.next b call = some b' →
      b.tx s ++ (handledBy (b,call)).flatMap (output s) = dequeuedBy s (b,call) ++ b'.tx s := by
    intro b call b' hb hok hn
    by_cases hproc : call = .processAllSessionPackets
    · subst hproc
      exact (hb.processAllSessionPackets_tx (processAllSessionPackets_ok (hok.2 rfl) hn) s).symm
    · rw [handledBy_eq_nil hproc,hb.next_tx hn hproc hok.1,List.flatMap_nil,List.append_nil]
  have hacc := hrun.accounting keeps_next step h (fun e he => hsince.call he)
  rw [hempty,List.nil_append] at hacc
  rw [List.flatMap_assoc]
  exact hacc.symm

/-- What is queued for a session is handled in order or still waits. -/
lemma Consistent.rx_accounting (h : registered.Consistent registered.sessions.toMap)
    (hempty : registered.rx s = []) (hrun : Run PicoBroker.next registered since broker)
    (hsince : CleanSince s since) : since.flatMap (queuedBy s) =
      (since.flatMap handledBy).filterMap (ownPacket s) ++ broker.rx s := by
  have step : ∀ (b : PicoBroker T P Q S M B) (call : Call T P) (b' : PicoBroker T P Q S M B),
      b.Consistent b.sessions.toMap → (call ≠ .removeSession s ∧
        (call = .processAllSessionPackets → ∃ b'', PicoBroker.processAllSessionPackets b = .ok () b'')) →
      PicoBroker.next b call = some b' →
      b.rx s ++ queuedBy s (b,call) = (handledBy (b,call)).filterMap (ownPacket s) ++ b'.rx s := by
    intro b call b' hb hok hn
    by_cases hproc : call = .processAllSessionPackets
    · subst hproc
      exact hb.processAllSessionPackets_rx (processAllSessionPackets_ok (hok.2 rfl) hn) s
    · rw [handledBy_eq_nil hproc]
      exact hb.next_rx hn hproc hok.1
  have hacc := hrun.accounting keeps_next step h (fun e he => hsince.call he)
  rw [hempty,List.nil_append] at hacc
  rw [List.filterMap_flatMap]
  exact hacc

/-- The brokers that the handled packets of a run find are consistent. -/
lemma Consistent.of_mem_handledBy (h : registered.Consistent registered.sessions.toMap)
    (hrun : Run PicoBroker.next registered since broker) {v : PicoBroker T P Q S M B × (ℕ × Packet T P)}
    (hv : v ∈ since.flatMap handledBy) : v.1.Consistent v.1.sessions.toMap := by
  obtain ⟨⟨b,call⟩,he,hv⟩ := List.mem_flatMap.mp hv
  have hb := hrun.invariant_mem (I := fun b => b.Consistent b.sessions.toMap) keeps_next h _ he
  cases call with
  | processAllSessionPackets => exact (hb.mem_handledIn hv).1
  | _ => cases hv

/-- End-to-end delivery. Since its registration, the PUBLISH packets dequeued for a session and those
still waiting are the handled ones that matched its filters at their handling, each once and in
order. -/
theorem delivery (hB : S ≤ B) (hbefore : Reachable next new before)
    (hregister : registerNewSession s keepAliveSecs currentTime before = .ok () registered)
    (hrun : Run next registered since broker) (hsince : CleanSince s since) :
    (since.flatMap (dequeuedBy s)).filterMap Packet.publish? ++
        (broker.tx s).filterMap Packet.publish? =
      (since.flatMap handledBy).filterMap (matchedPublish s) := by
  obtain ⟨hc,-,hempty⟩ := (consistent_of_reachable hbefore).of_registerNewSession hregister
  rw [← List.filterMap_append,hc.tx_accounting hempty hrun hsince,List.filterMap_flatMap,
    List.filterMap_eq_flatMap_toList]
  apply List.flatMap_congr
  intro v hv
  exact (hc.of_mem_handledBy hrun hv).output_publish hB s

/-- Every request is answered once. Since its registration, the other packets dequeued for a session
and those still waiting are the answers to its own handled packets, and these are the packets queued
on its behalf, in order, up to those that still wait. -/
theorem answers (hbefore : Reachable next new before)
    (hregister : registerNewSession s keepAliveSecs currentTime before = .ok () registered)
    (hrun : Run next registered since broker) (hsince : CleanSince s since) :
    (since.flatMap (dequeuedBy s)).filter (·.publish?.isNone) ++
        (broker.tx s).filter (·.publish?.isNone) =
      ((since.flatMap handledBy).filterMap (ownPacket s)).flatMap response ∧
    since.flatMap (queuedBy s) =
      (since.flatMap handledBy).filterMap (ownPacket s) ++ broker.rx s := by
  obtain ⟨hc,hrx,htx⟩ := (consistent_of_reachable hbefore).of_registerNewSession hregister
  refine ⟨?_,hc.rx_accounting hrx hrun hsince⟩
  have hown : ∀ l : List (PicoBroker T P Q S M B × (ℕ × Packet T P)),
      (l.filterMap (ownPacket s)).flatMap response =
        l.flatMap (fun v => (ownPacket s v).toList.flatMap response) := by
    intro l
    rw [List.filterMap_eq_flatMap_toList,List.flatMap_assoc]
  rw [← List.filter_append,hc.tx_accounting htx hrun hsince,List.filter_flatMap,hown]
  apply List.flatMap_congr
  intro v _
  rw [output_answers,answered,ownPacket]
  by_cases hs : s = v.2.1
  · simp [hs]
  · simp [hs,Ne.symm hs]

/-- Session 1 subscribes to `a`, publishes to it and takes one packet. -/
def publishCalls : List (Call 1 1) :=
  [.queuePacketReceivedFromClient 1 (.subscribe subscribeA) 1,
    .queuePacketReceivedFromClient 1 (.publish publishA) 1,
    .processAllSessionPackets,.dequeuePacketToSendToClient 1]

/-- The broker that has just registered the session, and the broker after these calls. -/
def publishRegistered : PicoBroker 1 1 2 2 1 2 :=
  (exec next new [.registerNewSession 1 60 0]).get (by decide)
def publishDequeued : PicoBroker 1 1 2 2 1 2 :=
  (exec next publishRegistered publishCalls).get (by decide)

lemma publish_run : Run next publishRegistered (trace next publishRegistered publishCalls)
    publishDequeued := run_trace (Option.some_get (by decide)).symm

lemma publish_cleanSince : CleanSince 1 (trace next publishRegistered publishCalls) :=
  ⟨by decide,by decide⟩

/-- The PUBLISH waits behind the SUBACK that was taken. -/
theorem delivery_publish :
    ((trace next publishRegistered publishCalls).flatMap (dequeuedBy 1)).filterMap
        Packet.publish? ++ (publishDequeued.tx 1).filterMap Packet.publish? =
      ((trace next publishRegistered publishCalls).flatMap handledBy).filterMap (matchedPublish 1) :=
  delivery (by decide) (Reachable.refl next new)
    (show registerNewSession 1 60 0 new = .ok () publishRegistered by decide) publish_run
    publish_cleanSince

/-- The SUBACK was taken, and the PUBLISH asked for no PUBACK. -/
theorem answers_publish :
    ((trace next publishRegistered publishCalls).flatMap (dequeuedBy 1)).filter
        (·.publish?.isNone) ++ (publishDequeued.tx 1).filter (·.publish?.isNone) =
      (((trace next publishRegistered publishCalls).flatMap handledBy).filterMap
        (ownPacket 1)).flatMap response ∧
    (trace next publishRegistered publishCalls).flatMap (queuedBy 1) =
      ((trace next publishRegistered publishCalls).flatMap handledBy).filterMap (ownPacket 1) ++
        publishDequeued.rx 1 :=
  answers (Reachable.refl next new)
    (show registerNewSession 1 60 0 new = .ok () publishRegistered by decide) publish_run
    publish_cleanSince

end Accounting

end PicoBroker

end Picobroker
