import Picobroker.Broker.Draining

/-! Every call keeps the broker consistent, and what the errors of
`process_all_session_packets` can be. -/
namespace Picobroker
open Rust

variable {T P Q S M B : ℕ}

namespace PicoBroker

variable {broker : PicoBroker T P Q S M B} {m : SessionMap T P} {s : ℕ}

/-- A keyed call on an id that is not registered fails and changes nothing. -/
lemma Consistent.missing {α : Type} (h : broker.Consistent m) (hs : s ∉ m.ids)
    (body : Proc (Session T P Q) BrokerError α) :
    onSessions (SessionRegistry.withSession s body) broker = .err (.sessionNotFound s) broker := by
  rw [onSessions,Proc.zoom_apply,SessionRegistry.withSession_missing h.shows hs]
  rfl

/-- Registering fails and changes nothing, or adds a new session. -/
lemma Consistent.registerNewSession (h : broker.Consistent m) (s : ℕ) (keepAliveSecs : UInt16)
    (currentTime : ℕ) :
    (∃ error, registerNewSession s keepAliveSecs currentTime broker = .err error broker) ∨
    (∃ why, registerNewSession s keepAliveSecs currentTime broker = .abort why) ∨
    ∃ broker', registerNewSession s keepAliveSecs currentTime broker = .ok () broker' ∧ s ∉ m.ids ∧
      broker'.topics = broker.topics ∧
      broker'.Consistent (m.add s ⟨none,keepAliveSecs,.connecting,currentTime⟩) := by
  rw [PicoBroker.registerNewSession,onSessions,Proc.zoom_apply]
  have hj := SessionRegistry.registerNewSession_joins h.shows s keepAliveSecs currentTime
  generalize SessionRegistry.registerNewSession s keepAliveSecs currentTime broker.sessions = o at hj ⊢
  cases hj with
  | full => exact .inl ⟨_,rfl⟩
  | «exists» => exact .inl ⟨_,rfl⟩
  | overflow => exact .inr (.inl ⟨_,rfl⟩)
  | @joined sessions fresh shows =>
    refine .inr (.inr ⟨{ broker with sessions },rfl,fresh,rfl,shows,h.topics,?_⟩)
    intro entry he x hx
    exact List.mem_append_left _ (h.registered entry he x hx)

lemma Consistent.markSessionDisconnected (h : broker.Consistent m) (s : ℕ) :
    (s ∉ m.ids ∧ markSessionDisconnected s broker = .err (.sessionNotFound s) broker) ∨
    (s ∈ m.ids ∧ ∃ broker', markSessionDisconnected s broker = .ok () broker' ∧
      broker'.topics = broker.topics ∧
      broker'.Consistent (m.setProfile s (fun p => { p with state := .disconnected }))) := by
  by_cases hs : s ∈ m.ids
  · exact .inr ⟨hs,h.handleDisconnect hs⟩
  · exact .inl ⟨hs,h.missing hs _⟩

/-- Removing takes the session out of the map and out of every entry. -/
lemma Consistent.removeSession (h : broker.Consistent m) (s : ℕ) :
    (broker.removeSession s).2.Consistent (m.remove s) := by
  refine ⟨SessionRegistry.removeSession_shows h.shows s,h.topics.unregisterAll s,?_⟩
  have hboth : broker.topics.EveryEntry (fun l => l.Nodup ∧ ∀ x ∈ l, x ∈ m.ids) :=
    fun entry he => ⟨h.topics.nodup entry he,h.registered entry he⟩
  refine TopicRegistry.unregisterAll_everyEntry ?_ hboth
  intro l hl x hx
  rw [hl.1.mem_erase_iff] at hx
  rw [SessionMap.remove_ids,List.mem_filter,bne_iff_ne]
  exact ⟨hl.2 x hx.2,hx.1⟩

/-- Queueing a received packet also notes the time, even when the queue turns out to be full. -/
lemma Consistent.queuePacketReceivedFromClient (h : broker.Consistent m) (s : ℕ)
    (packet : Packet T P) (currentTime : ℕ) :
    (s ∉ m.ids ∧ queuePacketReceivedFromClient s packet currentTime broker =
      .err (.sessionNotFound s) broker) ∨
    (s ∈ m.ids ∧ ∃ broker', queuePacketReceivedFromClient s packet currentTime broker =
        .err (.sessionQueueFull s Q) broker' ∧ Q ≤ (m.rx s).length ∧ broker'.topics = broker.topics ∧
      broker'.Consistent (m.setProfile s (fun p => { p with lastActivity := currentTime }))) ∨
    (queuePacketReceivedFromClient s packet currentTime broker = .abort .panic ∧ 65535 < Q) ∨
    (s ∈ m.ids ∧ ∃ broker', queuePacketReceivedFromClient s packet currentTime broker =
        .ok () broker' ∧ broker'.topics = broker.topics ∧
      broker'.Consistent ((m.setProfile s (fun p => { p with lastActivity := currentTime })).setRx s
        (m.rx s ++ [packet]))) := by
  rw [PicoBroker.queuePacketReceivedFromClient,Proc.bind_apply,SessionRegistry.updateSessionActivity]
  by_cases hs : s ∈ m.ids
  · obtain ⟨b₁,hb₁,ht₁,hc₁⟩ := h.profile (f := Session.updateActivity currentTime)
      (g := fun p => { p with lastActivity := currentTime }) hs (fun _ => rfl) (fun _ => rfl)
      (fun _ => rfl) (fun _ => rfl)
    rw [hb₁,Outcome.andThen_ok,onSessions,Proc.zoom_apply]
    have hr : SessionRegistry.Receives b₁.sessions _ s packet _ :=
      SessionRegistry.queueRxPacket_receives hc₁.shows hs packet
    generalize SessionRegistry.queueRxPacket s packet b₁.sessions = o at hr ⊢
    cases hr with
    | full full => exact .inr (.inl ⟨hs,b₁,rfl,full,ht₁,hc₁⟩)
    | overflow _ capacity => exact .inr (.inr (.inl ⟨rfl,capacity⟩))
    | @received sessions _ _ shows =>
      exact .inr (.inr (.inr ⟨hs,{ b₁ with sessions },rfl,ht₁,hc₁.sessions shows rfl⟩))
  · rw [h.missing hs]
    exact .inl ⟨hs,rfl⟩

lemma Consistent.dequeuePacketToSendToClient (h : broker.Consistent m) (s : ℕ) :
    (s ∉ m.ids ∧ dequeuePacketToSendToClient s broker = .err (.sessionNotFound s) broker) ∨
    (s ∈ m.ids ∧ ∃ broker', dequeuePacketToSendToClient s broker = .ok (m.tx s).head? broker' ∧
      broker'.topics = broker.topics ∧ broker'.Consistent (m.setTx s (m.tx s).tail)) := by
  by_cases hs : s ∈ m.ids
  · obtain ⟨sessions,hd,hshow⟩ := SessionRegistry.dequeueTxPacket_shows h.shows hs
    refine .inr ⟨hs,{ broker with sessions },?_,rfl,h.sessions hshow rfl⟩
    rw [PicoBroker.dequeuePacketToSendToClient,onSessions,Proc.zoom_apply,hd]
    rfl
  · exact .inl ⟨hs,h.missing hs _⟩

/-- The packet that a call dequeues for the session. -/
def dequeuedBy (s : ℕ) (e : PicoBroker T P Q S M B × Call T P) : List (Packet T P) :=
  match e.2 with
  | .dequeuePacketToSendToClient id =>
    if id = s then
      match dequeuePacketToSendToClient id e.1 with
      | .ok (some packet) _ => [packet]
      | _ => []
    else []
  | _ => []

/-- The packet that a call queues for handling on behalf of the session. -/
def queuedBy (s : ℕ) (e : PicoBroker T P Q S M B × Call T P) : List (Packet T P) :=
  match e.2 with
  | .queuePacketReceivedFromClient id packet currentTime =>
    if id = s then
      match queuePacketReceivedFromClient id packet currentTime e.1 with
      | .ok _ _ => [packet]
      | _ => []
    else []
  | _ => []

/-- What a call other than processing does: to the sessions, and as a move of packets in and out of
their queues. -/
inductive Effect (broker : PicoBroker T P Q S M B) (m : SessionMap T P) :
    Call T P → PicoBroker T P Q S M B → SessionMap T P → Prop
  | refused {call : Call T P} (queued : ∀ s, queuedBy s (broker,call) = [])
      (dequeued : ∀ s, dequeuedBy s (broker,call) = []) : Effect broker m call broker m
  | registered {id : ℕ} {keepAliveSecs : UInt16} {currentTime : ℕ}
      {broker' : PicoBroker T P Q S M B} (fresh : id ∉ m.ids)
      (topics : broker'.topics = broker.topics) :
      Effect broker m (.registerNewSession id keepAliveSecs currentTime) broker'
        (m.add id ⟨none,keepAliveSecs,.connecting,currentTime⟩)
  | disconnected {id : ℕ} {broker' : PicoBroker T P Q S M B}
      (topics : broker'.topics = broker.topics) :
      Effect broker m (.markSessionDisconnected id) broker'
        (m.setProfile id (fun p => { p with state := .disconnected }))
  | removed (id : ℕ) :
      Effect broker m (.removeSession id) (broker.removeSession id).2 (m.remove id)
  | noted {id : ℕ} {packet : Packet T P} {currentTime : ℕ} {broker' : PicoBroker T P Q S M B}
      (topics : broker'.topics = broker.topics)
      (queued : ∀ s, queuedBy s (broker,.queuePacketReceivedFromClient id packet currentTime) = []) :
      Effect broker m (.queuePacketReceivedFromClient id packet currentTime) broker'
        (m.setProfile id (fun p => { p with lastActivity := currentTime }))
  | received {id : ℕ} {packet : Packet T P} {currentTime : ℕ} {broker' : PicoBroker T P Q S M B}
      (topics : broker'.topics = broker.topics)
      (queued : ∀ s, queuedBy s (broker,.queuePacketReceivedFromClient id packet currentTime) =
        if id = s then [packet] else []) :
      Effect broker m (.queuePacketReceivedFromClient id packet currentTime) broker'
        ((m.setProfile id (fun p => { p with lastActivity := currentTime })).setRx id
          (m.rx id ++ [packet]))
  | taken {id : ℕ} {broker' : PicoBroker T P Q S M B} (topics : broker'.topics = broker.topics)
      (dequeued : ∀ s, dequeuedBy s (broker,.dequeuePacketToSendToClient id) =
        if id = s then (m.tx id).head?.toList else []) :
      Effect broker m (.dequeuePacketToSendToClient id) broker' (m.setTx id (m.tx id).tail)

/-- Every call other than processing has one of these effects, also when it returns an error. -/
lemma Consistent.effect {call : Call T P} {broker' : PicoBroker T P Q S M B}
    (h : broker.Consistent m) (hn : broker.next call = some broker')
    (hproc : call ≠ .processAllSessionPackets) :
    ∃ m', broker'.Consistent m' ∧ Effect broker m call broker' m' := by
  cases call with
  | registerNewSession id keepAliveSecs currentTime =>
    change (PicoBroker.registerNewSession id keepAliveSecs currentTime broker).state? = _ at hn
    obtain ⟨e,hr⟩ | ⟨why,hr⟩ | ⟨b',hr,fresh,topics,hc⟩ :=
      h.registerNewSession id keepAliveSecs currentTime
    · rw [hr] at hn
      cases hn
      exact ⟨m,h,.refused (fun _ => rfl) (fun _ => rfl)⟩
    · rw [hr] at hn
      cases hn
    · rw [hr] at hn
      cases hn
      exact ⟨_,hc,.registered fresh topics⟩
  | markSessionDisconnected id =>
    change (PicoBroker.markSessionDisconnected id broker).state? = _ at hn
    obtain ⟨-,hr⟩ | ⟨-,b',hr,topics,hc⟩ := h.markSessionDisconnected id
    · rw [hr] at hn
      cases hn
      exact ⟨m,h,.refused (fun _ => rfl) (fun _ => rfl)⟩
    · rw [hr] at hn
      cases hn
      exact ⟨_,hc,.disconnected topics⟩
  | removeSession id =>
    cases hn
    exact ⟨_,h.removeSession id,.removed id⟩
  | queuePacketReceivedFromClient id packet currentTime =>
    change (PicoBroker.queuePacketReceivedFromClient id packet currentTime broker).state? = _ at hn
    obtain ⟨-,hr⟩ | ⟨-,b',hr,-,topics,hc⟩ | ⟨hr,-⟩ | ⟨-,b',hr,topics,hc⟩ :=
      h.queuePacketReceivedFromClient id packet currentTime
    · have queued : ∀ s,
          queuedBy s (broker,.queuePacketReceivedFromClient id packet currentTime) = [] := by
        intro s
        simp only [queuedBy,hr,ite_self]
      rw [hr] at hn
      cases hn
      exact ⟨m,h,.refused queued (fun _ => rfl)⟩
    · have queued : ∀ s,
          queuedBy s (broker,.queuePacketReceivedFromClient id packet currentTime) = [] := by
        intro s
        simp only [queuedBy,hr,ite_self]
      rw [hr] at hn
      cases hn
      exact ⟨_,hc,.noted topics queued⟩
    · rw [hr] at hn
      cases hn
    · have queued : ∀ s, queuedBy s (broker,.queuePacketReceivedFromClient id packet currentTime) =
          if id = s then [packet] else [] := by
        intro s
        simp only [queuedBy,hr]
      rw [hr] at hn
      cases hn
      exact ⟨_,hc,.received topics queued⟩
  | dequeuePacketToSendToClient id =>
    change (PicoBroker.dequeuePacketToSendToClient id broker).state? = _ at hn
    obtain ⟨-,hr⟩ | ⟨-,b',hr,topics,hc⟩ := h.dequeuePacketToSendToClient id
    · have dequeued : ∀ s, dequeuedBy s (broker,.dequeuePacketToSendToClient id) = [] := by
        intro s
        simp only [dequeuedBy,hr,ite_self]
      rw [hr] at hn
      cases hn
      exact ⟨m,h,.refused (fun _ => rfl) dequeued⟩
    · have dequeued : ∀ s, dequeuedBy s (broker,.dequeuePacketToSendToClient id) =
          if id = s then (m.tx id).head?.toList else [] := by
        intro s
        simp only [dequeuedBy,hr]
        cases (m.tx id).head? <;> rfl
      rw [hr] at hn
      cases hn
      exact ⟨_,hc,.taken topics dequeued⟩
  | processAllSessionPackets => exact absurd rfl hproc

/-- One call keeps the broker consistent, also when it returns an error. -/
lemma Consistent.next {call : Call T P} {broker' : PicoBroker T P Q S M B}
    (h : broker.Consistent m) (hn : broker.next call = some broker') :
    broker'.Consistent broker'.sessions.toMap := by
  by_cases hproc : call = .processAllSessionPackets
  · subst hproc
    change (PicoBroker.processAllSessionPackets broker).state? = _ at hn
    rw [h.processAllSessionPackets_eq] at hn
    exact (h.forEach_handleQueued h.queued_eq.symm broker' hn).1
  · obtain ⟨m',hc,-⟩ := h.effect hn hproc
    exact hc.self.1

lemma keeps_next (b : PicoBroker T P Q S M B) (call : Call T P) (b' : PicoBroker T P Q S M B)
    (hb : b.Consistent b.sessions.toMap) (hn : b.next call = some b') :
    b'.Consistent b'.sessions.toMap := hb.next hn

/-- Every state that a sequence of calls reaches is consistent. -/
lemma Consistent.run {h : List (PicoBroker T P Q S M B × Call T P)}
    {broker' : PicoBroker T P Q S M B} (hc : broker.Consistent broker.sessions.toMap)
    (hr : Run PicoBroker.next broker h broker') : broker'.Consistent broker'.sessions.toMap :=
  hr.invariant (I := fun b => b.Consistent b.sessions.toMap) keeps_next hc

lemma consistent_of_reachable (h : Reachable next new broker) :
    broker.Consistent broker.sessions.toMap := by
  obtain ⟨h,hr⟩ := h
  exact Consistent.run consistent_new hr

/-- The errors of `process_all_session_packets`. -/
lemma Consistent.processAllSessionPackets_err (h : broker.Consistent m) {error : BrokerError}
    {broker' : PicoBroker T P Q S M B}
    (he : processAllSessionPackets broker = .err error broker') :
    (∃ x, error = .sessionQueueFull x Q) ∨ (∃ current, error = .maxTopicsReached current M) ∨
      (B < S ∧ ∃ current, error = .maxSubscribersPerTopicReached current B) := by
  rw [h.processAllSessionPackets_eq,h.queued_eq] at he
  obtain ⟨x,hx,b,⟨hc,hids⟩,hb⟩ := Proc.forEach_err
    (fun x hx => keeps_handleQueued (mem_ids_of_mem_queued hx))
    h.self he
  have hmem : x.1 ∈ b.sessions.toMap.ids := by
    rw [hids]
    exact mem_ids_of_mem_queued hx
  obtain ⟨b',-,hc',hrun⟩ := hc.handleQueued_run hmem
  rw [hrun] at hb
  exact hc'.handlePacket_err hmem hb

/-- When it gives no result, a handler gave none. -/
lemma Consistent.processAllSessionPackets_abort (h : broker.Consistent m) {why : Abort}
    (ha : processAllSessionPackets broker = .abort why) :
    ∃ (b : PicoBroker T P Q S M B) (m' : SessionMap T P) (x : ℕ × Packet T P),
      b.Consistent m' ∧ x.1 ∈ m'.ids ∧ handlePacket x.1 x.2 b = .abort why := by
  rw [h.processAllSessionPackets_eq,h.queued_eq] at ha
  obtain ⟨x,hx,b,⟨hc,hids⟩,hb⟩ := Proc.forEach_abort
    (fun x hx => keeps_handleQueued (mem_ids_of_mem_queued hx))
    h.self ha
  have hmem : x.1 ∈ b.sessions.toMap.ids := by
    rw [hids]
    exact mem_ids_of_mem_queued hx
  obtain ⟨b',-,hc',hrun⟩ := hc.handleQueued_run hmem
  rw [hrun] at hb
  exact ⟨b',_,x,hc',hmem,hb⟩

/-- In every state that the public operations reach, also through errors, the subscribers are
registered sessions, and processing fails only because a queue, the table of filters or, with fewer
places than sessions, an entry is full. -/
theorem subscribers_registered (hQ : Q ≤ 65535) (hM : M ≤ 65535) (hB : B ≤ 65535)
    (h : Reachable next new broker) :
    (∀ entry ∈ broker.topics.topics.asSlice, ∀ s ∈ entry.subscribers.asSlice,
      s ∈ broker.sessions.ids) ∧
    ((∃ broker', processAllSessionPackets broker = .ok () broker') ∨
      ∃ error broker', processAllSessionPackets broker = .err error broker' ∧
        ((∃ x, error = .sessionQueueFull x Q) ∨ (∃ current, error = .maxTopicsReached current M) ∨
          (B < S ∧ ∃ current, error = .maxSubscribersPerTopicReached current B))) := by
  have hc := consistent_of_reachable h
  refine ⟨hc.registered,?_⟩
  cases hp : processAllSessionPackets broker with
  | ok u broker' => exact .inl ⟨broker',rfl⟩
  | err error broker' => exact .inr ⟨error,broker',rfl,hc.processAllSessionPackets_err hp⟩
  | abort why =>
    obtain ⟨b,m,x,hb,hx,ha⟩ := hc.processAllSessionPackets_abort hp
    exact absurd ha (hb.handlePacket_returns hx hQ hM hB x.2 why)

/-- The topic `a`, a SUBSCRIBE for it and a PUBLISH to it. -/
def topicA : TopicName 1 := ⟨1,[0x61],rfl,le_rfl,by decide⟩
def subscribeA : SubscribePacket 1 := ⟨7,topicA,.atMostOnce⟩
def publishA : PublishPacket 1 1 := ⟨topicA,none,.new,.atMostOnce,false,false⟩

/-- Session 1 asks for the filter `a`, session 2 for a sign of life. -/
def subscribeCalls : List (Call 1 1) :=
  [.registerNewSession 1 60 0,.registerNewSession 2 60 0,
    .queuePacketReceivedFromClient 1 (.subscribe subscribeA) 1,
    .queuePacketReceivedFromClient 2 (.pingReq {}) 1]

/-- The broker of two sessions after these calls, and after the packets were processed. -/
def subscribeQueued : PicoBroker 1 1 2 2 1 2 := (exec next new subscribeCalls).get (by decide)
def subscribeProcessed : PicoBroker 1 1 2 2 1 2 :=
  (exec next new (subscribeCalls ++ [.processAllSessionPackets])).get (by decide)

/-- After the processing session 1 is a subscriber, and it is registered. -/
theorem subscribers_registered_processed :
    (∀ entry ∈ subscribeProcessed.topics.topics.asSlice, ∀ s ∈ entry.subscribers.asSlice,
      s ∈ subscribeProcessed.sessions.ids) ∧
    ((∃ broker', processAllSessionPackets subscribeProcessed = .ok () broker') ∨
      ∃ error broker', processAllSessionPackets subscribeProcessed = .err error broker' ∧
        ((∃ x, error = .sessionQueueFull x 2) ∨ (∃ current, error = .maxTopicsReached current 1) ∨
          (2 < 2 ∧ ∃ current, error = .maxSubscribersPerTopicReached current 2))) :=
  subscribers_registered (by decide) (by decide) (by decide)
    (reachable_of_exec (Option.some_get (by decide)).symm)

/-- `process_all_session_packets` is the fold of the handlers over the packets that wait at the call,
in the order of registration, up to the first error. It ends, takes exactly the packets it handled
off their queues, and after `Ok` has handled every packet once. -/
theorem processAllSessionPackets_fold (h : Reachable next new broker) :
    processAllSessionPackets broker = Proc.forEach handleQueued broker.queued broker ∧
    processAllSessionPackets broker ≠ .abort .outOfFuel ∧
    (∀ broker', broker.processAllSessionPackets.state? = some broker' →
      broker.queued = (handledIn broker).map Prod.snd ++ broker'.queued) ∧
    (∀ broker', processAllSessionPackets broker = .ok () broker' →
      (handledIn broker).map Prod.snd = broker.queued ∧
      ∀ session ∈ broker'.sessions.all, session.rxQueue.asSlice = []) := by
  have hc := consistent_of_reachable h
  have heq := hc.processAllSessionPackets_eq
  have hleaves := hc.forEach_handleQueued hc.queued_eq.symm
  rw [← heq] at hleaves
  refine ⟨heq,?_,?_,?_⟩
  · intro ha
    obtain ⟨b,m,x,hb,hx,ha⟩ := hc.processAllSessionPackets_abort ha
    cases hb.handlePacket_abort hx ha
  · intro broker' hs
    obtain ⟨hc',-,hq⟩ := hleaves broker' hs
    rw [hc'.queued_eq]
    exact hq
  · intro broker' hok
    have hall : (handledIn broker).map Prod.snd = broker.queued := by
      rw [heq] at hok
      exact Proc.turns_map_snd hok
    refine ⟨hall,?_⟩
    rw [hok,Outcome.leaves_ok] at hleaves
    obtain ⟨hc',-,hq⟩ := hleaves
    change broker.queued = (handledIn broker).map Prod.snd ++ _ at hq
    rw [hall,← hc'.queued_eq,List.self_eq_append_right] at hq
    intro session hs
    have hrx : session.rx = [] := by
      have hnil := List.flatMap_eq_nil_iff.mp hq session hs
      exact List.map_eq_nil_iff.mp hnil
    rw [(hc'.shows.wellFormed.filled session hs).rx,hrx]
    rfl

/-- The two waiting packets are handled in the order of registration. -/
theorem processAllSessionPackets_fold_queued :
    processAllSessionPackets subscribeQueued =
      Proc.forEach handleQueued subscribeQueued.queued subscribeQueued ∧
    processAllSessionPackets subscribeQueued ≠ .abort .outOfFuel ∧
    (∀ broker', subscribeQueued.processAllSessionPackets.state? = some broker' →
      subscribeQueued.queued = (handledIn subscribeQueued).map Prod.snd ++ broker'.queued) ∧
    (∀ broker', processAllSessionPackets subscribeQueued = .ok () broker' →
      (handledIn subscribeQueued).map Prod.snd = subscribeQueued.queued ∧
      ∀ session ∈ broker'.sessions.all, session.rxQueue.asSlice = []) :=
  processAllSessionPackets_fold (reachable_of_exec (Option.some_get (by decide)).symm)

end PicoBroker

end Picobroker
