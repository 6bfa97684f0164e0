import Picobroker.Broker.Broker
import Picobroker.Session.Map

/-! What each handler does to the topic registry and to the map of sessions, step by step and on
every exit. -/
namespace Picobroker
open Rust

variable {T P Q S M B : ℕ}

namespace SessionMap

/-- Append the packet to the queue of every listed session. -/
def sendAll (m : SessionMap T P) (ids : List ℕ) (packet : Packet T P) : SessionMap T P :=
  ids.foldl (fun m id => m.send id packet) m

/-- Append the packet, if there is one, to the queue of the session. -/
def sendOption (m : SessionMap T P) (id : ℕ) : Option (Packet T P) → SessionMap T P
  | some packet => m.send id packet
  | none => m

variable (m : SessionMap T P)

@[simp] lemma sendAll_nil (packet : Packet T P) : m.sendAll [] packet = m := rfl
@[simp] lemma sendAll_cons (id : ℕ) (ids : List ℕ) (packet : Packet T P) :
    m.sendAll (id::ids) packet = (m.send id packet).sendAll ids packet := rfl

@[simp] lemma sendAll_ids (ids : List ℕ) (packet : Packet T P) : (m.sendAll ids packet).ids = m.ids := by
  induction ids generalizing m with
  | nil => rfl
  | cons id ids ih => rw [sendAll_cons,ih,send_ids]

@[simp] lemma sendAll_rx (ids : List ℕ) (packet : Packet T P) : (m.sendAll ids packet).rx = m.rx := by
  induction ids generalizing m with
  | nil => rfl
  | cons id ids ih => rw [sendAll_cons,ih,send_rx]

@[simp] lemma sendAll_profile (ids : List ℕ) (packet : Packet T P) :
    (m.sendAll ids packet).profile = m.profile := by
  induction ids generalizing m with
  | nil => rfl
  | cons id ids ih => rw [sendAll_cons,ih,send_profile]

/-- A session that is listed once gets one copy. -/
lemma sendAll_tx {ids : List ℕ} (h : ids.Nodup) (packet : Packet T P) (s : ℕ) :
    (m.sendAll ids packet).tx s = m.tx s ++ if s ∈ ids then [packet] else [] := by
  induction ids generalizing m with
  | nil => simp
  | cons id ids ih =>
    rw [List.nodup_cons] at h
    rw [sendAll_cons,ih _ h.2,send_tx,List.append_assoc]
    by_cases hs : s = id
    · subst hs
      simp [h.1]
    · simp [hs]

@[simp] lemma sendOption_ids (id : ℕ) (packet : Option (Packet T P)) :
    (m.sendOption id packet).ids = m.ids := by cases packet <;> rfl
@[simp] lemma sendOption_rx (id : ℕ) (packet : Option (Packet T P)) :
    (m.sendOption id packet).rx = m.rx := by cases packet <;> rfl
@[simp] lemma sendOption_profile (id : ℕ) (packet : Option (Packet T P)) :
    (m.sendOption id packet).profile = m.profile := by cases packet <;> rfl
lemma sendOption_tx (id : ℕ) (packet : Option (Packet T P)) (s : ℕ) :
    (m.sendOption id packet).tx s = m.tx s ++ if s = id then packet.toList else [] := by
  cases packet with
  | none => simp [sendOption]
  | some packet => exact send_tx m id packet s

lemma setProfile_setProfile (id : ℕ) (f g : Profile → Profile) :
    (m.setProfile id f).setProfile id g = m.setProfile id (g ∘ f) := by
  simp [setProfile,Option.map_map]

@[simp] lemma setProfile_id (id' : ℕ) : m.setProfile id' id = m := by
  rw [setProfile,Option.map_id,id_eq,Function.update_eq_self]

end SessionMap

namespace PicoBroker

/-- The broker is well formed, its sessions are the map `m`, and only registered sessions
subscribe. -/
structure Consistent (broker : PicoBroker T P Q S M B) (m : SessionMap T P) : Prop where
  shows : broker.sessions.Shows m
  topics : broker.topics.WellFormed
  registered : broker.topics.EveryEntry (∀ s ∈ ·, s ∈ m.ids)

lemma consistent_new : Consistent (new : PicoBroker T P Q S M B) .empty :=
  ⟨SessionRegistry.shows_new,TopicRegistry.wellFormed_new,TopicRegistry.everyEntry_new _⟩

section Handlers

variable {broker : PicoBroker T P Q S M B} {m : SessionMap T P} {s : ℕ}

lemma Consistent.toMap_eq (h : broker.Consistent m) : broker.sessions.toMap = m := h.shows.toMap_eq

/-- Seen through its own map the broker is consistent, with the same sessions. -/
lemma Consistent.self (h : broker.Consistent m) :
    broker.Consistent broker.sessions.toMap ∧ broker.sessions.toMap.ids = m.ids := by
  rw [h.toMap_eq]
  exact ⟨h,rfl⟩

/-- The sessions change and the ids stay. -/
lemma Consistent.sessions (h : broker.Consistent m) {sessions : SessionRegistry T P Q S}
    {m' : SessionMap T P} (hs : sessions.Shows m') (hids : m'.ids = m.ids) :
    Consistent { broker with sessions } m' := by
  refine ⟨hs,h.topics,?_⟩
  rw [hids]
  exact h.registered

/-- Changing the metadata of the session succeeds. -/
lemma Consistent.profile {f : Session T P Q → Session T P Q} {g : Profile → Profile}
    (h : broker.Consistent m) (hs : s ∈ m.ids) (hid : ∀ x, (f x).sessionId = x.sessionId)
    (hrx : ∀ x, (f x).rxQueue = x.rxQueue) (htx : ∀ x, (f x).txQueue = x.txQueue)
    (hg : ∀ x, (f x).profile = g x.profile) :
    ∃ broker' : PicoBroker T P Q S M B,
      onSessions (SessionRegistry.withSession s (Proc.modify f)) broker = .ok () broker' ∧
      broker'.topics = broker.topics ∧ broker'.Consistent (m.setProfile s g) := by
  obtain ⟨sessions,hok,hshow⟩ := SessionRegistry.withSession_profile hid hrx htx hg h.shows hs
  refine ⟨{ broker with sessions },?_,rfl,h.sessions hshow rfl⟩
  rw [onSessions,Proc.zoom_apply,hok]
  rfl

/-- Sending fails when the queue is full and changes nothing then. -/
lemma Consistent.send (h : broker.Consistent m) (hs : s ∈ m.ids) (packet : Packet T P) :
    (Q ≤ (m.tx s).length ∧ onSessions (SessionRegistry.queueTxPacket s packet) broker =
      .err (.sessionQueueFull s Q) broker) ∨
    ((m.tx s).length = 65535 ∧ 65535 < Q ∧
      onSessions (SessionRegistry.queueTxPacket s packet) broker = .abort .panic) ∨
    ((m.tx s).length < Q ∧ (m.tx s).length < 65535 ∧ ∃ broker' : PicoBroker T P Q S M B,
      onSessions (SessionRegistry.queueTxPacket s packet) broker = .ok () broker' ∧
      broker'.topics = broker.topics ∧ broker'.Consistent (m.send s packet)) := by
  rw [onSessions,Proc.zoom_apply]
  have hq := SessionRegistry.queueTxPacket_sends h.shows hs packet
  generalize SessionRegistry.queueTxPacket s packet broker.sessions = o at hq ⊢
  cases hq with
  | full full => exact .inl ⟨full,rfl⟩
  | overflow length capacity => exact .inr (.inl ⟨length,capacity,rfl⟩)
  | @sent sessions room length shows =>
    exact .inr (.inr ⟨room,length,{ broker with sessions },rfl,rfl,h.sessions shows rfl⟩)

/-- What the metadata becomes with a CONNECT. -/
def connected (connect : ConnectPacket T P) (profile : Profile) : Profile :=
  { profile with
    clientId := if connect.clientId.isEmpty then profile.clientId else some connect.clientId
    keepAliveSecs := connect.keepAlive
    state := .connected }

/-- What handling a CONNECT can do: the metadata changes first, the CONNACK may then find no room. -/
inductive Connects (broker : PicoBroker T P Q S M B) (m : SessionMap T P) (s : ℕ)
    (connect : ConnectPacket T P) : Outcome (PicoBroker T P Q S M B) BrokerError Unit → Prop
  | full {broker'} (full : Q ≤ (m.tx s).length) (topics : broker'.topics = broker.topics)
      (consistent : broker'.Consistent (m.setProfile s (connected connect))) :
      Connects broker m s connect (.err (.sessionQueueFull s Q) broker')
  | overflow (length : (m.tx s).length = 65535) (capacity : 65535 < Q) :
      Connects broker m s connect (.abort .panic)
  | connected {broker'} (topics : broker'.topics = broker.topics)
      (consistent : broker'.Consistent
        ((m.setProfile s (connected connect)).send s (.connAck .default))) :
      Connects broker m s connect (.ok () broker')

lemma Consistent.handleConnect (h : broker.Consistent m) (hs : s ∈ m.ids)
    (connect : ConnectPacket T P) :
    Connects broker m s connect (handleConnect s connect broker) := by
  -- the client id, when the packet has one
  obtain ⟨b₁,hb₁,ht₁,hc₁⟩ : ∃ b₁ : PicoBroker T P Q S M B,
      (if connect.clientId.isEmpty then (pure () : Proc (PicoBroker T P Q S M B) BrokerError Unit)
        else onSessions (SessionRegistry.updateClientId s connect.clientId)) broker = .ok () b₁ ∧
      b₁.topics = broker.topics ∧ b₁.Consistent (m.setProfile s (fun p => { p with
        clientId := if connect.clientId.isEmpty then p.clientId else some connect.clientId })) := by
    by_cases he : connect.clientId.isEmpty = true
    · refine ⟨broker,by rw [if_pos he]; rfl,rfl,?_⟩
      simpa [he,SessionMap.setProfile] using h
    · simp only [if_neg he]
      exact h.profile hs (fun _ => rfl) (fun _ => rfl) (fun _ => rfl) (fun _ => rfl)
  obtain ⟨b₂,hb₂,ht₂,hc₂⟩ := hc₁.profile (f := fun x => { x with keepAliveSecs := connect.keepAlive })
    (g := fun p => { p with keepAliveSecs := connect.keepAlive }) (s := s) hs (fun _ => rfl)
    (fun _ => rfl) (fun _ => rfl) (fun _ => rfl)
  obtain ⟨b₃,hb₃,ht₃,hc₃⟩ := hc₂.profile (f := fun x => { x with state := .connected })
    (g := fun p => { p with state := .connected }) (s := s) hs (fun _ => rfl)
    (fun _ => rfl) (fun _ => rfl) (fun _ => rfl)
  rw [SessionMap.setProfile_setProfile,SessionMap.setProfile_setProfile] at hc₃
  have hrun : PicoBroker.handleConnect s connect broker =
      onSessions (SessionRegistry.queueTxPacket s (.connAck .default)) b₃ := by
    rw [PicoBroker.handleConnect,Proc.bind_apply,hb₁,Outcome.andThen_ok,Proc.bind_apply,
      SessionRegistry.updateKeepAlive,hb₂,Outcome.andThen_ok,Proc.bind_apply,
      SessionRegistry.markConnected,hb₃,Outcome.andThen_ok]
  have ht : b₃.topics = broker.topics := ht₃.trans (ht₂.trans ht₁)
  have hc : b₃.Consistent (m.setProfile s (PicoBroker.connected connect)) := hc₃
  rw [hrun]
  obtain ⟨hfull,hq⟩ | ⟨hl,hcap,hq⟩ | ⟨-,-,b₄,hq,ht₄,hc₄⟩ := hc.send (s := s) hs (.connAck .default)
  · rw [hq]
    exact .full hfull ht hc
  · rw [hq]
    exact .overflow hl hcap
  · rw [hq]
    exact .connected (ht₄.trans ht) hc₄

/-- Sending one packet to several sessions stops at the first that has no room. -/
lemma Consistent.fanOut {ids : List ℕ} (h : broker.Consistent m) (hids : ∀ x ∈ ids, x ∈ m.ids)
    (packet : Packet T P) :
    (∃ broker' : PicoBroker T P Q S M B, Proc.forEach (fun id =>
        onSessions (SessionRegistry.queueTxPacket id packet)) ids broker = .ok () broker' ∧
      broker'.topics = broker.topics ∧ broker'.Consistent (m.sendAll ids packet)) ∨
    ∃ pre x post, ids = pre ++ x::post ∧ ((Q ≤ ((m.sendAll pre packet).tx x).length ∧
        ∃ broker' : PicoBroker T P Q S M B, Proc.forEach (fun id =>
          onSessions (SessionRegistry.queueTxPacket id packet)) ids broker =
            .err (.sessionQueueFull x Q) broker' ∧
        broker'.topics = broker.topics ∧ broker'.Consistent (m.sendAll pre packet)) ∨
      (((m.sendAll pre packet).tx x).length = 65535 ∧ 65535 < Q ∧ Proc.forEach (fun id =>
        onSessions (SessionRegistry.queueTxPacket id packet)) ids broker = .abort .panic)) := by
  induction ids generalizing broker m with
  | nil => exact .inl ⟨broker,rfl,rfl,h⟩
  | cons id ids ih =>
    rw [Proc.forEach_cons]
    obtain ⟨hfull,hq⟩ | ⟨hl,hcap,hq⟩ | ⟨-,-,b₁,hq,ht₁,hc₁⟩ := h.send (hids id (by simp)) packet
    · rw [hq]
      exact .inr ⟨[],id,ids,rfl,.inl ⟨hfull,broker,rfl,rfl,h⟩⟩
    · rw [hq]
      exact .inr ⟨[],id,ids,rfl,.inr ⟨hl,hcap,rfl⟩⟩
    · rw [hq,Outcome.andThen_ok]
      obtain ⟨b₂,hq₂,ht₂,hc₂⟩ | ⟨pre,x,post,hsplit,hstop⟩ :=
        ih hc₁ (fun x hx => hids x (by simp [hx]))
      · exact .inl ⟨b₂,hq₂,ht₂.trans ht₁,hc₂⟩
      · refine .inr ⟨id::pre,x,post,by rw [hsplit]; rfl,?_⟩
        obtain ⟨hfull,b₂,hq₂,ht₂,hc₂⟩ | hover := hstop
        · exact .inl ⟨hfull,b₂,hq₂,ht₂.trans ht₁,hc₂⟩
        · exact .inr hover

/-- What handling a PUBLISH can do: the copies go out in the order of the subscribers, up to the first
that has no room, and the PUBACK comes last. -/
inductive Publishes (broker : PicoBroker T P Q S M B) (m : SessionMap T P) (s : ℕ)
    (publish : PublishPacket T P) : Outcome (PicoBroker T P Q S M B) BrokerError Unit → Prop
  | tooMany (none : broker.topics.getSubscribers publish.topicName = none) :
      Publishes broker m s publish (.abort .panic)
  | blocked {subscribers pre x post broker'}
      (get : broker.topics.getSubscribers publish.topicName = some subscribers)
      (split : subscribers.asSlice = pre ++ x::post)
      (full : Q ≤ ((m.sendAll pre (.publish publish)).tx x).length)
      (topics : broker'.topics = broker.topics)
      (consistent : broker'.Consistent (m.sendAll pre (.publish publish))) :
      Publishes broker m s publish (.err (.sessionQueueFull x Q) broker')
  | overflow {subscribers pre x post}
      (get : broker.topics.getSubscribers publish.topicName = some subscribers)
      (split : subscribers.asSlice = pre ++ x::post)
      (length : ((m.sendAll pre (.publish publish)).tx x).length = 65535) (capacity : 65535 < Q) :
      Publishes broker m s publish (.abort .panic)
  | ackBlocked {subscribers ack broker'}
      (get : broker.topics.getSubscribers publish.topicName = some subscribers)
      (ack_eq : pubAckOf publish = some ack)
      (full : Q ≤ ((m.sendAll subscribers.asSlice (.publish publish)).tx s).length)
      (topics : broker'.topics = broker.topics)
      (consistent : broker'.Consistent (m.sendAll subscribers.asSlice (.publish publish))) :
      Publishes broker m s publish (.err (.sessionQueueFull s Q) broker')
  | ackOverflow {subscribers ack}
      (get : broker.topics.getSubscribers publish.topicName = some subscribers)
      (ack_eq : pubAckOf publish = some ack)
      (length : ((m.sendAll subscribers.asSlice (.publish publish)).tx s).length = 65535)
      (capacity : 65535 < Q) : Publishes broker m s publish (.abort .panic)
  | delivered {subscribers broker'}
      (get : broker.topics.getSubscribers publish.topicName = some subscribers)
      (topics : broker'.topics = broker.topics)
      (consistent : broker'.Consistent
        ((m.sendAll subscribers.asSlice (.publish publish)).sendOption s (pubAckOf publish))) :
      Publishes broker m s publish (.ok () broker')

lemma Consistent.mem_of_getSubscribers (h : broker.Consistent m) {topic : TopicName T}
    {subscribers : HeaplessVec ℕ B} (hget : broker.topics.getSubscribers topic = some subscribers) :
    ∀ x ∈ subscribers.asSlice, x ∈ m.ids := by
  intro x hx
  obtain ⟨entry,he,-,hmem⟩ := TopicRegistry.matched_of_mem_getSubscribers hget hx
  exact h.registered entry he x hmem

lemma Consistent.handlePublish (h : broker.Consistent m) (hs : s ∈ m.ids)
    (publish : PublishPacket T P) :
    Publishes broker m s publish (handlePublish s publish broker) := by
  rw [PicoBroker.handlePublish,Proc.bind_apply,Proc.get_apply,Outcome.andThen_ok,Proc.bind_apply]
  cases hget : broker.topics.getSubscribers publish.topicName with
  | none => exact .tooMany hget
  | some subscribers =>
    rw [Proc.lift_some,Outcome.andThen_ok,Proc.bind_apply]
    obtain ⟨b₁,hq,ht,hc⟩ | ⟨pre,x,post,hsplit,⟨hfull,b₁,hq,ht,hc⟩ | ⟨hl,hcap,hq⟩⟩ :=
      h.fanOut (h.mem_of_getSubscribers hget) (.publish publish)
    · rw [hq,Outcome.andThen_ok]
      cases hack : pubAckOf publish with
      | none =>
        refine .delivered hget ht ?_
        rw [hack]
        exact hc
      | some ack =>
        have hs' : s ∈ (m.sendAll subscribers.asSlice (.publish publish)).ids := by
          rw [SessionMap.sendAll_ids]
          exact hs
        obtain ⟨hfull,hq₂⟩ | ⟨hl,hcap,hq₂⟩ | ⟨-,-,b₂,hq₂,ht₂,hc₂⟩ := hc.send hs' ack
        · simp only [hq₂]
          exact .ackBlocked hget hack hfull ht hc
        · simp only [hq₂]
          exact .ackOverflow hget hack hl hcap
        · simp only [hq₂]
          refine .delivered hget (ht₂.trans ht) ?_
          rw [hack]
          exact hc₂
    · rw [hq]
      exact .blocked hget hsplit hfull ht hc
    · rw [hq]
      exact .overflow hget hsplit hl hcap

/-- The registry after a SUBSCRIBE of a registered session. -/
lemma Consistent.subscribe (h : broker.Consistent m) (hs : s ∈ m.ids) (filter : TopicName T) :
    (TopicRegistry.subscribe s filter broker.topics).Leaves
      (fun topics => Consistent { broker with topics } m) := by
  have hreg : (TopicRegistry.subscribe s filter broker.topics).Leaves
      (TopicRegistry.EveryEntry (∀ x ∈ ·, x ∈ m.ids)) := by
    apply TopicRegistry.subscribe_everyEntry
    · intro x hx
      rw [List.mem_singleton] at hx
      rw [hx]
      exact hs
    · intro l hl _ x hx
      rw [List.mem_append,List.mem_singleton] at hx
      obtain hx | hx := hx
      · exact hl x hx
      · rw [hx]
        exact hs
    · exact h.registered
  exact ((h.topics.subscribe s filter).and hreg).imp (fun topics ht => ⟨h.shows,ht.1,ht.2⟩)

/-- What handling a SUBSCRIBE can do: the registry changes first, the SUBACK may then find no room. -/
inductive Subscribes (broker : PicoBroker T P Q S M B) (m : SessionMap T P) (s : ℕ)
    (subscribe : SubscribePacket T) : Outcome (PicoBroker T P Q S M B) BrokerError Unit → Prop
  | refused {error} (call : TopicRegistry.subscribe s subscribe.topicFilter broker.topics =
        .err error broker.topics) :
      Subscribes broker m s subscribe (.err error broker)
  | topicsOverflow (call : TopicRegistry.subscribe s subscribe.topicFilter broker.topics =
        .abort .panic) :
      Subscribes broker m s subscribe (.abort .panic)
  | ackBlocked {topics} (call : TopicRegistry.subscribe s subscribe.topicFilter broker.topics =
        .ok () topics) (full : Q ≤ (m.tx s).length)
      (consistent : Consistent { broker with topics } m) :
      Subscribes broker m s subscribe (.err (.sessionQueueFull s Q) { broker with topics })
  | ackOverflow {topics} (call : TopicRegistry.subscribe s subscribe.topicFilter broker.topics =
        .ok () topics) (length : (m.tx s).length = 65535) (capacity : 65535 < Q) :
      Subscribes broker m s subscribe (.abort .panic)
  | granted {broker'} (call : TopicRegistry.subscribe s subscribe.topicFilter broker.topics =
        .ok () broker'.topics)
      (consistent : broker'.Consistent
        (m.send s (.subAck ⟨subscribe.packetId,subscribe.requestedQos⟩))) :
      Subscribes broker m s subscribe (.ok () broker')

lemma Consistent.handleSubscribe (h : broker.Consistent m) (hs : s ∈ m.ids)
    (subscribe : SubscribePacket T) :
    Subscribes broker m s subscribe (handleSubscribe s subscribe broker) := by
  rw [PicoBroker.handleSubscribe,Proc.bind_apply,onTopics,Proc.zoom_apply]
  have hleaves := h.subscribe hs subscribe.topicFilter
  cases hcall : TopicRegistry.subscribe s subscribe.topicFilter broker.topics with
  | ok u topics =>
    rw [hcall,Outcome.leaves_ok] at hleaves
    rw [Outcome.mapState_ok,Outcome.andThen_ok]
    obtain ⟨hfull,hq⟩ | ⟨hl,hcap,hq⟩ | ⟨-,-,b₁,hq,ht,hc⟩ :=
      hleaves.send hs (.subAck ⟨subscribe.packetId,subscribe.requestedQos⟩)
    · rw [hq]
      exact .ackBlocked hcall hfull hleaves
    · rw [hq]
      exact .ackOverflow hcall hl hcap
    · rw [hq]
      refine .granted ?_ hc
      rw [hcall,ht]
  | err e topics =>
    obtain ⟨htopics,-⟩ := TopicRegistry.subscribe_err hcall
    rw [htopics] at hcall ⊢
    exact .refused hcall
  | abort why =>
    have hspec := TopicRegistry.subscribe_spec s subscribe.topicFilter broker.topics
    rw [hcall] at hspec
    cases hspec with
    | entryOverflow => exact .topicsOverflow hcall
    | tableOverflow => exact .topicsOverflow hcall

lemma Consistent.handleDisconnect (h : broker.Consistent m) (hs : s ∈ m.ids) :
    ∃ broker' : PicoBroker T P Q S M B, PicoBroker.handleDisconnect s broker = .ok () broker' ∧
      broker'.topics = broker.topics ∧
      broker'.Consistent (m.setProfile s (fun p => { p with state := .disconnected })) :=
  h.profile hs (fun _ => rfl) (fun _ => rfl) (fun _ => rfl) (fun _ => rfl)

end Handlers

end PicoBroker

end Picobroker
