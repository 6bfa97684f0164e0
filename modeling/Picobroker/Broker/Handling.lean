import Picobroker.Broker.Handlers

/-! What handling one packet can do, whatever its kind: the handlers taken together. -/
namespace Picobroker
open Rust

variable {T P Q S M B : ℕ}

namespace PicoBroker

/-- The packets waiting for the client of a session. -/
def tx (broker : PicoBroker T P Q S M B) (s : ℕ) : List (Packet T P) :=
  ((broker.sessions.findSession s).map Session.tx).getD []

/-- The packets received from the client of a session and not handled yet. -/
def rx (broker : PicoBroker T P Q S M B) (s : ℕ) : List (Packet T P) :=
  ((broker.sessions.findSession s).map Session.rx).getD []

/-- The answers to a packet of one's own. -/
def response : Packet T P → List (Packet T P)
  | .connect _ => [.connAck .default]
  | .subscribe subscribe => [.subAck ⟨subscribe.packetId,subscribe.requestedQos⟩]
  | .publish publish =>
    match publish.packetId with
    | some packetId => if publish.qos ≠ .atMostOnce then [.pubAck ⟨packetId⟩] else []
    | none => []
  | .pingReq _ => [.pingResp {}]
  | _ => []

lemma response_publish (publish : PublishPacket T P) :
    response (.publish publish) = (pubAckOf publish).toList := by
  unfold pubAckOf
  cases hq : publish.qos <;> cases hid : publish.packetId <;> simp [response,hq,hid,QoS.acknowledged]

/-- The copy of a handled packet that goes to the session as a subscriber. -/
def forwarded (broker : PicoBroker T P Q S M B) (packet : Packet T P) (s : ℕ) : List (Packet T P) :=
  match packet with
  | .publish publish =>
    match broker.topics.getSubscribers publish.topicName with
    | some subscribers => if s ∈ subscribers.asSlice then [.publish publish] else []
    | none => []
  | _ => []

/-- What a handled packet puts into the queue of a session. -/
def output (s : ℕ) (v : PicoBroker T P Q S M B × (ℕ × Packet T P)) : List (Packet T P) :=
  forwarded v.1 v.2.2 s ++ if s = v.2.1 then response v.2.2 else []

/-- What a packet makes of the metadata of its session. -/
def noted : Packet T P → Profile → Profile
  | .connect connect => connected connect
  | .disconnect _ => fun profile => { profile with state := .disconnected }
  | _ => id

/-- What a packet makes of the topics when its handler succeeds. -/
def Grants (s : ℕ) (topics topics' : TopicRegistry T M B) : Packet T P → Prop
  | .subscribe subscribe => TopicRegistry.subscribe s subscribe.topicFilter topics = .ok () topics'
  | _ => topics' = topics

variable {broker broker' : PicoBroker T P Q S M B} {m m' : SessionMap T P} {s : ℕ}
  {packet : Packet T P} {sent : ℕ → List (Packet T P)}

lemma Consistent.tx_eq (h : broker.Consistent m) (s : ℕ) : broker.tx s = m.tx s := by
  rw [← h.toMap_eq]
  rfl

lemma Consistent.rx_eq (h : broker.Consistent m) (s : ℕ) : broker.rx s = m.rx s := by
  rw [← h.toMap_eq]
  rfl

/-- What the handlers leave alone: the registered sessions and what they still have to handle. -/
structure Frames (m : SessionMap T P) (broker : PicoBroker T P Q S M B) : Prop where
  consistent : broker.Consistent broker.sessions.toMap
  ids : broker.sessions.toMap.ids = m.ids
  rx : broker.sessions.toMap.rx = m.rx

/-- A broker after a packet of the session `s`, of which `sent` has reached the queues. -/
structure After (m : SessionMap T P) (s : ℕ) (packet : Packet T P) (sent : ℕ → List (Packet T P))
    (broker : PicoBroker T P Q S M B) : Prop where
  frames : broker.Frames m
  profile : broker.sessions.toMap.profile = (m.setProfile s (noted packet)).profile
  tx : ∀ t, broker.tx t = m.tx t ++ sent t

lemma Consistent.after (h : broker'.Consistent m') (hids : m'.ids = m.ids) (hrx : m'.rx = m.rx)
    (hprofile : m'.profile = (m.setProfile s (noted packet)).profile)
    (htx : ∀ t, m'.tx t = m.tx t ++ sent t) : broker'.After m s packet sent := by
  have he := h.toMap_eq
  refine ⟨⟨?_,?_,?_⟩,?_,?_⟩
  · rw [he]
    exact h
  · rw [he,hids]
  · rw [he,hrx]
  · rw [he,hprofile]
  · intro t
    rw [h.tx_eq,htx]

/-- A packet that only sends something, or nothing. -/
lemma Consistent.after_sent (h : broker'.Consistent m') (hids : m'.ids = m.ids) (hrx : m'.rx = m.rx)
    (hprofile : m'.profile = m.profile) (hnoted : noted packet = id)
    (htx : ∀ t, m'.tx t = m.tx t ++ sent t) : broker'.After m s packet sent := by
  refine h.after hids hrx ?_ htx
  rw [hnoted,SessionMap.setProfile_id,hprofile]

/-- What handling a packet can do: all of it, a front part of its sending and an error, or a panic. -/
inductive Handles (broker : PicoBroker T P Q S M B) (m : SessionMap T P) (s : ℕ)
    (packet : Packet T P) : Outcome (PicoBroker T P Q S M B) BrokerError Unit → Prop
  | done {broker' : PicoBroker T P Q S M B}
      (after : broker'.After m s packet (output · (broker,s,packet)))
      (grants : Grants s broker.topics broker'.topics packet) :
      Handles broker m s packet (.ok () broker')
  | failed {error : BrokerError} {broker' : PicoBroker T P Q S M B} {sent : ℕ → List (Packet T P)}
      (after : broker'.After m s packet sent)
      (front : ∀ t, sent t <+: output t (broker,s,packet))
      (full : (∃ x, error = .sessionQueueFull x Q) ∨ (∃ current, error = .maxTopicsReached current M) ∨
        (B < S ∧ ∃ current, error = .maxSubscribersPerTopicReached current B)) :
      Handles broker m s packet (.err error broker')
  | panicked (capacity : 65535 < Q ∨ 65535 < M ∨ 65535 < B) : Handles broker m s packet (.abort .panic)

/-- An entry that turns a registered session away lists as many others as it holds. -/
lemma Consistent.refused (h : broker.Consistent m) (hs : s ∈ m.ids) {filter : TopicName T}
    {error : BrokerError} {topics : TopicRegistry T M B}
    (hcall : TopicRegistry.subscribe s filter broker.topics = .err error topics) :
    (∃ current, error = .maxTopicsReached current M) ∨
      (B < S ∧ ∃ current, error = .maxSubscribersPerTopicReached current B) := by
  obtain ⟨-,⟨current,herr⟩ | ⟨current,herr,hB⟩⟩ := TopicRegistry.subscribe_err hcall
  · exact .inl ⟨current,herr⟩
  · refine .inr ⟨?_,current,herr⟩
    have hS := h.shows.length_le
    obtain hB | ⟨entry,hmem,hnot,hB⟩ := hB
    · have hpos := List.length_pos_of_mem hs
      omega
    · have hnodup : (s::entry.subscribers.asSlice).Nodup :=
        List.nodup_cons.mpr ⟨hnot,h.topics.nodup entry hmem⟩
      have hsub : (s::entry.subscribers.asSlice) ⊆ m.ids :=
        List.cons_subset.mpr ⟨hs,h.registered entry hmem⟩
      have hlen := (List.subperm_of_subset hnodup hsub).length_le
      rw [List.length_cons,HeaplessVec.asSlice_length] at hlen
      omega

section Kinds

variable (h : broker.Consistent m) (hs : s ∈ m.ids)
include h hs

lemma Consistent.connect_handles (connect : ConnectPacket T P) :
    Handles broker m s (.connect connect) (PicoBroker.handleConnect s connect broker) := by
  have hc := h.handleConnect hs connect
  generalize PicoBroker.handleConnect s connect broker = o at hc ⊢
  cases hc with
  | full _ _ consistent =>
    have hnone : ∀ t, (m.setProfile s (connected connect)).tx t = m.tx t ++ [] :=
      fun t => (List.append_nil _).symm
    exact .failed (consistent.after rfl rfl rfl hnone) (fun _ => List.nil_prefix) (.inl ⟨_,rfl⟩)
  | overflow _ capacity => exact .panicked (.inl capacity)
  | connected topics consistent =>
    exact .done (consistent.after rfl rfl rfl (SessionMap.send_tx _ _ _)) topics

lemma Consistent.publish_handles (publish : PublishPacket T P) :
    Handles broker m s (.publish publish) (PicoBroker.handlePublish s publish broker) := by
  have hc := h.handlePublish hs publish
  generalize PicoBroker.handlePublish s publish broker = o at hc ⊢
  cases hc with
  | tooMany none =>
    obtain ⟨v,hv,-⟩ | ⟨-,capacity,-⟩ := broker.topics.getSubscribers_cases publish.topicName
    · rw [none] at hv
      cases hv
    · exact .panicked (.inr (.inr capacity))
  | @blocked subscribers pre x post broker' get split _ _ consistent =>
    have hnodup := TopicRegistry.getSubscribers_nodup get
    rw [split] at hnodup
    refine .failed (consistent.after_sent (m.sendAll_ids _ _) (m.sendAll_rx _ _)
      (m.sendAll_profile _ _) rfl (m.sendAll_tx hnodup.of_append_left _)) ?_ (.inl ⟨_,rfl⟩)
    intro t
    split_ifs with ht
    · apply List.IsPrefix.trans _ (List.prefix_append _ _)
      simp only [forwarded,get]
      rw [if_pos]
      rw [split]
      exact List.mem_append_left _ ht
    · exact List.nil_prefix
  | overflow _ _ _ capacity => exact .panicked (.inl capacity)
  | ackBlocked get _ _ _ consistent =>
    refine .failed (consistent.after_sent (m.sendAll_ids _ _) (m.sendAll_rx _ _)
      (m.sendAll_profile _ _) rfl (m.sendAll_tx (TopicRegistry.getSubscribers_nodup get) _)) ?_
      (.inl ⟨_,rfl⟩)
    intro t
    simp only [output,forwarded,get]
    exact List.prefix_append _ _
  | ackOverflow _ _ _ capacity => exact .panicked (.inl capacity)
  | delivered get topics consistent =>
    refine .done (consistent.after_sent (by simp) (by simp) (by simp) rfl ?_) topics
    intro t
    rw [SessionMap.sendOption_tx,m.sendAll_tx (TopicRegistry.getSubscribers_nodup get),
      List.append_assoc]
    simp only [output,forwarded,get,response_publish]

lemma Consistent.subscribe_handles (subscribe : SubscribePacket T) :
    Handles broker m s (.subscribe subscribe : Packet T P)
      (PicoBroker.handleSubscribe s subscribe broker) := by
  have hc := h.handleSubscribe hs subscribe
  generalize PicoBroker.handleSubscribe s subscribe broker = o at hc ⊢
  have hnone : ∀ t, m.tx t = m.tx t ++ [] := fun t => (List.append_nil _).symm
  cases hc with
  | refused call =>
    exact .failed (h.after_sent rfl rfl rfl rfl hnone) (fun _ => List.nil_prefix)
      (.inr (h.refused hs call))
  | topicsOverflow call =>
    by_cases hcapacity : M ≤ 65535 ∧ B ≤ 65535
    · exact absurd call (TopicRegistry.subscribe_returns hcapacity.1 hcapacity.2 .panic)
    · exact .panicked (by omega)
  | ackBlocked _ _ consistent =>
    exact .failed (consistent.after_sent rfl rfl rfl rfl hnone) (fun _ => List.nil_prefix)
      (.inl ⟨_,rfl⟩)
  | ackOverflow _ _ capacity => exact .panicked (.inl capacity)
  | granted call consistent =>
    exact .done (consistent.after_sent rfl rfl rfl rfl (m.send_tx _ _)) call

lemma Consistent.pingReq_handles (pingReq : PingReqPacket) :
    Handles broker m s (.pingReq pingReq : Packet T P) (PicoBroker.handlePingReq s broker) := by
  rw [PicoBroker.handlePingReq]
  obtain ⟨-,hq⟩ | ⟨-,capacity,hq⟩ | ⟨-,-,b₁,hq,topics,consistent⟩ := h.send hs (.pingResp {})
  · rw [hq]
    exact .failed (h.after_sent rfl rfl rfl rfl (fun t => (List.append_nil _).symm))
      (fun _ => List.nil_prefix) (.inl ⟨_,rfl⟩)
  · rw [hq]
    exact .panicked (.inl capacity)
  · rw [hq]
    exact .done (consistent.after_sent rfl rfl rfl rfl (m.send_tx _ _)) topics

lemma Consistent.disconnect_handles (disconnect : DisconnectPacket) :
    Handles broker m s (.disconnect disconnect : Packet T P)
      (PicoBroker.handleDisconnect s broker) := by
  obtain ⟨b₁,hq,topics,consistent⟩ := h.handleDisconnect hs
  rw [hq]
  refine .done (consistent.after rfl rfl rfl ?_) topics
  intro t
  simp [output,forwarded,response]

/-- The dispatch: five kinds have a handler, the others are ignored. -/
lemma Consistent.handles (packet : Packet T P) :
    Handles broker m s packet (handlePacket s packet broker) := by
  have hignored : ∀ packet : Packet T P, noted packet = id → (∀ t, output t (broker,s,packet) = []) →
      Grants s broker.topics broker.topics packet → Handles broker m s packet (.ok () broker) := by
    intro packet hnoted hnone hgrants
    refine .done (h.after_sent rfl rfl rfl hnoted ?_) hgrants
    intro t
    rw [hnone,List.append_nil]
  cases packet with
  | connect connect => exact h.connect_handles hs connect
  | publish publish => exact h.publish_handles hs publish
  | subscribe subscribe => exact h.subscribe_handles hs subscribe
  | pingReq pingReq => exact h.pingReq_handles hs pingReq
  | disconnect disconnect => exact h.disconnect_handles hs disconnect
  | _ => exact hignored _ rfl (fun t => by simp [output,forwarded,response]) rfl

end Kinds

section Handled

variable (h : broker.Consistent m) (hs : s ∈ m.ids)
include h hs

/-- Handling a packet of a registered session, whatever comes of it, keeps the broker consistent,
registers and removes nobody and touches no queue of received packets. -/
lemma Consistent.handlePacket_leaves (packet : Packet T P) :
    (handlePacket s packet broker).Leaves (Frames m) := by
  have hc := h.handles hs packet
  generalize handlePacket s packet broker = o at hc ⊢
  cases hc with
  | done after => exact Outcome.leaves_ok.mpr after.frames
  | failed after => exact Outcome.leaves_err.mpr after.frames
  | panicked => exact Outcome.leaves_abort _ _

/-- Every handler ends or panics. -/
lemma Consistent.handlePacket_abort {why : Abort} (ha : handlePacket s packet broker = .abort why) :
    why = .panic := by
  have hc := h.handles hs packet
  rw [ha] at hc
  cases hc with
  | panicked => rfl

/-- Within capacities that a length counts, no handler panics. -/
lemma Consistent.handlePacket_returns (hQ : Q ≤ 65535) (hM : M ≤ 65535) (hB : B ≤ 65535)
    (packet : Packet T P) : (handlePacket s packet broker).Returns := by
  intro why ha
  have hc := h.handles hs packet
  rw [ha] at hc
  cases hc with
  | panicked capacity => omega

/-- The errors of a handler. -/
lemma Consistent.handlePacket_err {error : BrokerError}
    (he : handlePacket s packet broker = .err error broker') :
    (∃ x, error = .sessionQueueFull x Q) ∨ (∃ current, error = .maxTopicsReached current M) ∨
      (B < S ∧ ∃ current, error = .maxSubscribersPerTopicReached current B) := by
  have hc := h.handles hs packet
  rw [he] at hc
  cases hc with
  | failed _ _ full => exact full

/-- A handler that succeeds appends its output to every queue. -/
lemma Consistent.handlePacket_ok {u : Unit} (hok : handlePacket s packet broker = .ok u broker')
    (t : ℕ) : broker'.tx t = m.tx t ++ output t (broker,s,packet) := by
  have hc := h.handles hs packet
  rw [hok] at hc
  cases hc with
  | done after => exact after.tx t

/-- A handler that fails has sent the front part of its output to every session. -/
lemma Consistent.handlePacket_err_tx {error : BrokerError}
    (he : handlePacket s packet broker = .err error broker') (t : ℕ) :
    ∃ sent, broker'.tx t = m.tx t ++ sent ∧ sent <+: output t (broker,s,packet) := by
  have hc := h.handles hs packet
  rw [he] at hc
  cases hc with
  | failed after front => exact ⟨_,after.tx t,front t⟩

end Handled

end PicoBroker

end Picobroker
