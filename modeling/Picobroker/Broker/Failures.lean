import Picobroker.Broker.Delivery

/-! What a handler leaves behind that stops half-way: the copies of a PUBLISH that were not sent, and
what a CONNECT or a SUBSCRIBE has changed before its answer found no room. -/
namespace Picobroker
open Rust

variable {T P Q S M B : ℕ}

namespace PicoBroker

/-- Every subscriber whose queue has room gets the PUBLISH, whatever comes of the handling. -/
def Isolated (broker : PicoBroker T P Q S M B) (s : ℕ) (publish : PublishPacket T P)
    (subscribers : List ℕ) : Prop :=
  ∀ x ∈ subscribers, (broker.tx x).length < Q →
    ∃ broker' ∈ (handleQueued (s,.publish publish) broker).state?,
      broker.tx x ++ [.publish publish] <+: broker'.tx x

instance (broker : PicoBroker T P Q S M B) (s : ℕ) (publish : PublishPacket T P)
    (subscribers : List ℕ) : Decidable (broker.Isolated s publish subscribers) :=
  inferInstanceAs (Decidable (∀ _ ∈ _, _))

/-- The queues let the PUBLISH through to everyone who has room: no full queue stands before one with
room. Where a queue may be longer than a length counts, no length may be at its end either. -/
structure Flows (broker : PicoBroker T P Q S M B) (s : ℕ) (publish : PublishPacket T P)
    (subscribers : List ℕ) : Prop where
  inOrder : ∀ pre x post, subscribers = pre ++ x::post → (broker.tx x).length < Q →
    ∀ y ∈ pre, (broker.tx y).length < Q
  counted : 65535 < Q → ∀ x ∈ subscribers, (broker.tx x).length < 65535
  acknowledged : 65535 < Q → subscribers ≠ [] → (pubAckOf publish).isSome →
    (broker.tx s ++ forwarded broker (.publish publish) s).length < 65535

variable {broker : PicoBroker T P Q S M B} {m : SessionMap T P} {s : ℕ}
  {publish : PublishPacket T P}

/-- A turn sends its output to every session, or the front part of it when it fails. -/
lemma Consistent.handleQueued_tx (h : broker.Consistent m) {x : ℕ × Packet T P} (hx : x.1 ∈ m.ids)
    {broker' : PicoBroker T P Q S M B} (hs : (handleQueued x broker).state? = some broker')
    (t : ℕ) : ∃ sent, broker'.tx t = broker.tx t ++ sent ∧ sent <+: output t (broker,x) := by
  obtain ⟨b,ht,hc,hrun⟩ := h.handleQueued_run hx
  cases hq : handleQueued x broker with
  | ok u b' =>
    rw [hq] at hs
    cases hs
    exact ⟨_,h.handleQueued_ok hx hq t,List.prefix_rfl⟩
  | err error b' =>
    rw [hq] at hs
    cases hs
    rw [hrun] at hq
    obtain ⟨sent,htx,hsent⟩ := hc.handlePacket_err_tx hx hq t
    refine ⟨sent,?_,?_⟩
    · rw [htx,h.tx_eq,SessionMap.setRx_tx]
    · have hforward : forwarded b x.2 t = forwarded broker x.2 t := by
        unfold forwarded
        rw [ht]
      simpa only [output,hforward] using hsent
  | abort why =>
    rw [hq] at hs
    cases hs

/-- A queue had room for what was appended to it. -/
lemma Consistent.room_of_prefix {l : List (Packet T P)} {packet : Packet T P} {x : ℕ}
    (h : broker.Consistent m) (hp : l ++ [packet] <+: broker.tx x) :
    l.length < Q ∧ l.length < 65535 := by
  have hlen := hp.length_le
  have hle := h.shows.tx_length_le x
  rw [h.tx_eq,List.length_append,List.length_singleton] at hlen
  omega

lemma forwarded_of_get {subscribers : HeaplessVec ℕ B}
    (hget : broker.topics.getSubscribers publish.topicName = some subscribers) (x : ℕ) :
    forwarded broker (.publish publish) x =
      if x ∈ subscribers.asSlice then [.publish publish] else [] := by
  simp only [forwarded,hget]

/-- If everyone got a copy, everyone had room. -/
lemma Consistent.flows_of_sent {subscribers : HeaplessVec ℕ B} {broker' : PicoBroker T P Q S M B}
    (h : broker'.Consistent m)
    (hsent : ∀ x ∈ subscribers.asSlice, broker.tx x ++ [.publish publish] <+: broker'.tx x)
    (hack : 65535 < Q → (pubAckOf publish).isSome →
      (broker.tx s ++ forwarded broker (.publish publish) s).length < 65535) :
    broker.Flows s publish subscribers.asSlice := by
  refine ⟨?_,?_,fun hQ _ => hack hQ⟩
  · intro pre x post hsplit _ y hy
    have hmem : y ∈ subscribers.asSlice := by
      rw [hsplit]
      exact List.mem_append_left _ hy
    exact (h.room_of_prefix (hsent y hmem)).1
  · intro _ x hx
    exact (h.room_of_prefix (hsent x hx)).2

/-- A call that ended this way has given the PUBLISH to every subscriber whose queue had room. -/
def Reaches (broker : PicoBroker T P Q S M B) (publish : PublishPacket T P) (subscribers : List ℕ)
    (o : Outcome (PicoBroker T P Q S M B) BrokerError Unit) : Prop :=
  ∀ x ∈ subscribers, (broker.tx x).length < Q →
    ∃ broker' ∈ o.state?, broker.tx x ++ [.publish publish] <+: broker'.tx x

section Reaches

variable {broker' : PicoBroker T P Q S M B} {o : Outcome (PicoBroker T P Q S M B) BrokerError Unit}

/-- The fan-out stopped at a full queue: those before it got their copies, and they had room. -/
lemma Consistent.reaches_blocked {pre post : List ℕ} {x : ℕ} (h : broker.Consistent m)
    {m' : SessionMap T P} (h' : broker'.Consistent m') (ho : o.state? = some broker')
    (hnodup : (pre ++ x::post).Nodup) (hfull : Q ≤ (broker.tx x).length)
    (htx : ∀ y, broker'.tx y = broker.tx y ++ if y ∈ pre then [.publish publish] else []) :
    broker.Reaches publish (pre ++ x::post) o ↔ broker.Flows s publish (pre ++ x::post) := by
  have hgot : ∀ y, broker.tx y ++ [.publish publish] <+: broker'.tx y ↔ y ∈ pre := by
    intro y
    rw [htx,List.prefix_append_right_inj]
    split_ifs with hy
    · simp [hy]
    · simp [hy]
  have hpre : ∀ y ∈ pre, (broker.tx y).length < Q := fun y hy =>
    (h'.room_of_prefix ((hgot y).mpr hy)).1
  have hQ : Q ≤ 65535 := by
    have hle := (h.shows.tx_length_le x).2
    rw [← h.tx_eq] at hle
    omega
  have hiff := stop_iff_inOrder hnodup hpre (not_lt.mpr hfull)
  constructor
  · intro hreach
    refine ⟨hiff.mp ?_,by omega,by omega⟩
    intro y hy hroom
    obtain ⟨b',hb',hsent⟩ := hreach y hy hroom
    rw [ho] at hb'
    cases hb'
    exact (hgot y).mp hsent
  · intro hflows y hy hroom
    exact ⟨broker',ho,(hgot y).mpr (hiff.mpr hflows.inOrder y hy hroom)⟩

/-- Everyone got a copy. -/
lemma Consistent.reaches_sent {subscribers : HeaplessVec ℕ B} (h : broker'.Consistent m)
    (ho : o.state? = some broker')
    (hsent : ∀ x ∈ subscribers.asSlice, broker.tx x ++ [.publish publish] <+: broker'.tx x)
    (hack : 65535 < Q → (pubAckOf publish).isSome →
      (broker.tx s ++ forwarded broker (.publish publish) s).length < 65535) :
    broker.Reaches publish subscribers.asSlice o ↔ broker.Flows s publish subscribers.asSlice := by
  constructor
  · intro _
    exact h.flows_of_sent hsent hack
  · intro _ x hx _
    exact ⟨broker',ho,hsent x hx⟩

/-- The call gave no result: it reached nobody, and somebody had room. -/
lemma reaches_panicked {subscribers : List ℕ} {why : Abort}
    (hflows : broker.Flows s publish subscribers ↔ ∀ x ∈ subscribers, Q ≤ (broker.tx x).length) :
    broker.Reaches publish subscribers (.abort why) ↔ broker.Flows s publish subscribers := by
  rw [hflows]
  constructor
  · intro hreach x hx
    by_contra hroom
    obtain ⟨b',hb',-⟩ := hreach x hx (not_le.mp hroom)
    cases hb'
  · intro hfull x hx hroom
    exact absurd hroom (not_lt.mpr (hfull x hx))

end Reaches

/-- The copies reach everyone who has room exactly when no full queue stands in the way. -/
lemma Consistent.isolated_iff {subscribers : HeaplessVec ℕ B} (h : broker.Consistent m)
    (hs : s ∈ m.ids)
    (hget : broker.topics.getSubscribers publish.topicName = some subscribers) :
    broker.Isolated s publish subscribers.asSlice ↔ broker.Flows s publish subscribers.asSlice := by
  obtain ⟨b₁,ht,hc,hrun⟩ := h.handleQueued_run (x := (s,.publish publish)) hs
  have hget₁ : b₁.topics.getSubscribers publish.topicName = some subscribers := by
    rw [ht]
    exact hget
  have hnodup : subscribers.asSlice.Nodup := TopicRegistry.getSubscribers_nodup hget
  have hcount : ∀ x, (broker.tx x).length ≤ 65535 := by
    intro x
    rw [h.tx_eq]
    exact Nat.le_of_lt_succ (h.shows.tx_length_le x).2
  have hp := hc.handlePublish hs publish
  change broker.Reaches publish subscribers.asSlice (handleQueued (s,.publish publish) broker) ↔ _
  change handleQueued (s,.publish publish) broker = PicoBroker.handlePublish s publish b₁ at hrun
  rw [hrun]
  generalize PicoBroker.handlePublish s publish b₁ = o at hp ⊢
  cases hp with
  | tooMany get =>
    rw [hget₁] at get
    cases get
  | @blocked subscribers' pre x post broker' get split full _ consistent =>
    rw [hget₁] at get
    cases get
    rw [split] at hnodup ⊢
    have htx : ∀ y, broker'.tx y = broker.tx y ++ if y ∈ pre then [.publish publish] else [] := by
      intro y
      rw [consistent.tx_eq,SessionMap.sendAll_tx _ hnodup.of_append_left,SessionMap.setRx_tx,h.tx_eq]
    have hx : x ∉ pre := fun hx => List.disjoint_of_nodup_append hnodup hx List.mem_cons_self
    rw [← consistent.tx_eq,htx,if_neg hx,List.append_nil] at full
    exact h.reaches_blocked consistent rfl hnodup full htx
  | @overflow subscribers' pre x post get split length capacity =>
    rw [hget₁] at get
    cases get
    have hmem : x ∈ subscribers.asSlice := by rw [split]; simp
    rw [split] at hnodup
    have hx : x ∉ pre := fun hx => List.disjoint_of_nodup_append hnodup hx List.mem_cons_self
    rw [SessionMap.sendAll_tx _ hnodup.of_append_left,if_neg hx,List.append_nil,SessionMap.setRx_tx,
      ← h.tx_eq] at length
    apply reaches_panicked
    constructor
    · intro hflows
      have hlt := hflows.counted capacity x hmem
      omega
    · intro hfull
      have hle := hfull x hmem
      omega
  | @ackBlocked subscribers' ack broker' get _ full _ consistent =>
    rw [hget₁] at get
    cases get
    have htx : ∀ y, broker'.tx y = broker.tx y ++ forwarded broker (.publish publish) y := by
      intro y
      rw [consistent.tx_eq,SessionMap.sendAll_tx _ hnodup,SessionMap.setRx_tx,h.tx_eq,
        forwarded_of_get hget]
    apply consistent.reaches_sent rfl
    · intro x hx
      rw [htx,forwarded_of_get hget,if_pos hx]
    · intro hQ _
      have hle := (consistent.shows.tx_length_le s).2
      omega
  | @ackOverflow subscribers' ack get ack_eq length capacity =>
    rw [hget₁] at get
    cases get
    rw [SessionMap.sendAll_tx _ hnodup,SessionMap.setRx_tx,← h.tx_eq,← forwarded_of_get hget]
      at length
    apply reaches_panicked
    constructor
    · intro hflows x hx
      have hlt := hflows.acknowledged capacity (List.ne_nil_of_mem hx) (by rw [ack_eq]; rfl)
      omega
    · intro hfull
      -- no queue is full, so that nobody subscribes
      have hnone : ∀ x, x ∉ subscribers.asSlice := by
        intro x hx
        have hlt := hfull x hx
        have hle := hcount x
        omega
      rw [List.eq_nil_iff_forall_not_mem.mpr hnone]
      exact ⟨by simp,by simp,by simp⟩
  | @delivered subscribers' broker' get _ consistent =>
    rw [hget₁] at get
    cases get
    have htx : ∀ y, broker'.tx y = broker.tx y ++ forwarded broker (.publish publish) y ++
        if y = s then (pubAckOf publish).toList else [] := by
      intro y
      rw [consistent.tx_eq,SessionMap.sendOption_tx,SessionMap.sendAll_tx _ hnodup,
        SessionMap.setRx_tx,h.tx_eq,forwarded_of_get hget]
    apply consistent.reaches_sent rfl
    · intro x hx
      rw [htx,forwarded_of_get hget,if_pos hx]
      exact List.prefix_append _ _
    · intro _ hack
      obtain ⟨ack,hack⟩ := Option.isSome_iff_exists.mp hack
      have hsent : broker.tx s ++ forwarded broker (.publish publish) s ++ [ack] <+: broker'.tx s := by
        rw [htx,if_pos rfl,hack]
        rfl
      exact (consistent.room_of_prefix hsent).2

/-- Fan-out isolation holds for a handled PUBLISH exactly when no full queue stands before one with
room. -/
theorem publish_isolated_iff {b : PicoBroker T P Q S M B} {subscribers : HeaplessVec ℕ B}
    (h : Reachable next new broker) (hv : (b,s,.publish publish) ∈ handledIn broker)
    (hget : b.topics.getSubscribers publish.topicName = some subscribers) :
    b.Isolated s publish subscribers.asSlice ↔ b.Flows s publish subscribers.asSlice := by
  obtain ⟨hc,hs⟩ := (consistent_of_reachable h).mem_handledIn hv
  exact hc.isolated_iff hs hget

/-- Sessions 1 and 2 subscribe, and only session 2 takes its SUBACK. Then session 2 publishes. -/
def crowdedCalls : List (Call 1 1) :=
  [.registerNewSession 1 60 0,.registerNewSession 2 60 0,
    .queuePacketReceivedFromClient 1 (.subscribe subscribeA) 1,
    .queuePacketReceivedFromClient 2 (.subscribe subscribeA) 1,
    .processAllSessionPackets,.dequeuePacketToSendToClient 2,
    .queuePacketReceivedFromClient 2 (.publish publishA) 2]

def crowded : PicoBroker 1 1 1 2 1 2 := (exec next new crowdedCalls).get (by decide)

def crowdedSubscribers : HeaplessVec ℕ 2 :=
  (crowded.topics.getSubscribers topicA).get (by decide)

lemma crowded_reachable : Reachable next new crowded :=
  reachable_of_exec (Option.some_get (by decide)).symm

/-- The full queue of session 1 stands before the empty one of session 2. -/
theorem publish_isolated_iff_crowded :
    crowded.Isolated 2 publishA crowdedSubscribers.asSlice ↔
      crowded.Flows 2 publishA crowdedSubscribers.asSlice :=
  publish_isolated_iff crowded_reachable (by decide) (Option.some_get (by decide)).symm

/-- One full queue keeps the PUBLISH from a session that has room. -/
theorem publish_not_isolated : ¬ ∀ broker : PicoBroker 1 1 1 2 1 2, Reachable next new broker →
    ∀ b s publish, (b,s,.publish publish) ∈ handledIn broker →
      ∀ subscribers, b.topics.getSubscribers publish.topicName = some subscribers →
        b.Isolated s publish subscribers.asSlice := by
  intro hall
  have hiso := hall crowded crowded_reachable crowded 2 publishA (by decide) crowdedSubscribers
    (Option.some_get (by decide)).symm
  revert hiso
  decide

/-- The metadata of a session that a handler may change. -/
def metadata (broker : PicoBroker T P Q S M B) (s : ℕ) :
    Option (Option ClientId × UInt16 × SessionState) :=
  (broker.sessions.findSession s).map (fun x => (x.clientId,x.keepAliveSecs,x.state))

/-- If the handling fails, the topics, the metadata and the queues to the clients are as before. -/
def Atomic (broker : PicoBroker T P Q S M B) (x : ℕ × Packet T P) : Prop :=
  ∀ error broker', handleQueued x broker = .err error broker' →
    broker'.topics = broker.topics ∧ (∀ t, broker'.metadata t = broker.metadata t) ∧
      ∀ t, broker'.tx t = broker.tx t

/-- The CONNECT tells nothing new: the session is connected, with the same keep-alive time, and with
the same client id if the packet has one. -/
def Repeats (broker : PicoBroker T P Q S M B) (s : ℕ) (connect : ConnectPacket T P) : Prop :=
  ∃ id, broker.metadata s = some (id,connect.keepAlive,.connected) ∧
    (connect.clientId.isEmpty = true ∨ id = some connect.clientId)

lemma Consistent.metadata_eq (h : broker.Consistent m) (t : ℕ) :
    broker.metadata t = (m.profile t).map (fun p => (p.clientId,p.keepAliveSecs,p.state)) := by
  rw [← h.toMap_eq,metadata,SessionRegistry.toMap,Option.map_map]
  rfl

/-- A CONNECT leaves the metadata of its session alone exactly when it repeats it. -/
lemma Consistent.connected_iff (h : broker.Consistent m) (hs : s ∈ m.ids)
    (connect : ConnectPacket T P) :
    ((m.setProfile s (connected connect)).profile s).map
      (fun p => (p.clientId,p.keepAliveSecs,p.state)) = broker.metadata s ↔
      broker.Repeats s connect := by
  obtain ⟨session,-,-,-,hp,-⟩ := h.shows.find hs
  rw [Repeats,h.metadata_eq,SessionMap.setProfile_profile,if_pos rfl,hp]
  simp only [Option.map_some,connected,Option.some.injEq,Prod.mk.injEq]
  constructor
  · intro ⟨hid,hkeep,hstate⟩
    refine ⟨_,⟨rfl,hkeep.symm,hstate.symm⟩,?_⟩
    split_ifs at hid with he
    · exact .inl he
    · exact .inr hid.symm
  · intro ⟨id,⟨hid,hkeep,hstate⟩,hsame⟩
    refine ⟨?_,hkeep.symm,hstate.symm⟩
    split_ifs with he
    · rfl
    · rw [hid]
      exact (hsame.resolve_left he).symm

lemma Consistent.connect_atomic_iff (h : broker.Consistent m) (hs : s ∈ m.ids)
    (connect : ConnectPacket T P) : broker.Atomic (s,.connect connect) ↔
      (broker.tx s).length < Q ∨ broker.Repeats s connect := by
  obtain ⟨b₁,ht,hc,hrun⟩ := h.handleQueued_run (x := (s,.connect connect)) hs
  have hconnects := hc.handleConnect hs connect
  change handleQueued (s,.connect connect) broker = PicoBroker.handleConnect s connect b₁ at hrun
  rw [Atomic,hrun]
  generalize PicoBroker.handleConnect s connect b₁ = o at hconnects ⊢
  cases hconnects with
  | @full broker' full topics consistent =>
    rw [SessionMap.setRx_tx,← h.tx_eq] at full
    have hmeta : ∀ t, broker'.metadata t = ((m.setProfile s (connected connect)).profile t).map
        (fun p => (p.clientId,p.keepAliveSecs,p.state)) := consistent.metadata_eq
    rw [Outcome.forall_err,← h.connected_iff hs,← hmeta]
    constructor
    · intro hatomic
      exact .inr (hatomic.2.1 s)
    · intro hrepeats
      refine ⟨topics.trans ht,?_,?_⟩
      · intro t
        by_cases hts : t = s
        · rw [hts]
          exact hrepeats.resolve_left (by omega)
        · rw [hmeta,SessionMap.setProfile_profile,if_neg hts,h.metadata_eq]
      · intro t
        rw [consistent.tx_eq,h.tx_eq]
        rfl
  | overflow length capacity =>
    rw [SessionMap.setRx_tx,← h.tx_eq] at length
    rw [Outcome.forall_err_abort,true_iff]
    exact .inl (by omega)
  | @connected broker' _ consistent =>
    have hsent : broker.tx s ++ [.connAck .default] <+: broker'.tx s := by
      rw [consistent.tx_eq,SessionMap.send_tx,if_pos rfl,h.tx_eq]
      exact List.prefix_rfl
    rw [Outcome.forall_err_ok,true_iff]
    exact .inl (consistent.room_of_prefix hsent).1

lemma Consistent.subscribe_atomic_iff (h : broker.Consistent m) (hs : s ∈ m.ids)
    (subscribe : SubscribePacket T) : broker.Atomic (s,.subscribe subscribe) ↔
      (broker.tx s).length < Q ∨ ¬ broker.topics.Accepts s subscribe.topicFilter := by
  obtain ⟨b₁,ht,hc,hrun⟩ := h.handleQueued_run (x := (s,.subscribe subscribe)) hs
  have hsubscribes := hc.handleSubscribe hs subscribe
  change handleQueued (s,.subscribe subscribe) broker = PicoBroker.handleSubscribe s subscribe b₁
    at hrun
  rw [Atomic,hrun,← TopicRegistry.subscribe_changes_iff h.topics.distinct,← ht]
  have hmeta : ∀ {b : PicoBroker T P Q S M B} {m' : SessionMap T P}, b.Consistent m' →
      m'.profile = m.profile → ∀ t, b.metadata t = broker.metadata t := by
    intro b m' hb he t
    rw [hb.metadata_eq,h.metadata_eq,he]
  have htx : ∀ {b : PicoBroker T P Q S M B} {m' : SessionMap T P}, b.Consistent m' →
      m'.tx = m.tx → ∀ t, b.tx t = broker.tx t := by
    intro b m' hb he t
    rw [hb.tx_eq,h.tx_eq,he]
  generalize PicoBroker.handleSubscribe s subscribe b₁ = o at hsubscribes ⊢
  cases hsubscribes with
  | refused call =>
    rw [Outcome.forall_err]
    constructor
    · intro _
      refine .inr ?_
      intro ⟨topics,hok,_⟩
      rw [call] at hok
      cases hok
    · intro _
      exact ⟨rfl,hmeta hc rfl,htx hc rfl⟩
  | topicsOverflow call =>
    rw [Outcome.forall_err_abort,true_iff]
    refine .inr ?_
    intro ⟨topics,hok,_⟩
    rw [call] at hok
    cases hok
  | @ackBlocked topics call full consistent =>
    rw [SessionMap.setRx_tx,← h.tx_eq] at full
    rw [Outcome.forall_err]
    constructor
    · intro hatomic
      refine .inr ?_
      intro ⟨topics',hok,hne⟩
      rw [call] at hok
      cases hok
      exact hne hatomic.1
    · intro hsame
      refine ⟨?_,hmeta consistent rfl,htx consistent rfl⟩
      by_contra hne
      exact hsame.resolve_left (by omega) ⟨topics,call,hne⟩
  | ackOverflow _ length capacity =>
    rw [SessionMap.setRx_tx,← h.tx_eq] at length
    rw [Outcome.forall_err_abort,true_iff]
    exact .inl (by omega)
  | @granted broker' _ consistent =>
    have hsent : broker.tx s ++ [.subAck ⟨subscribe.packetId,subscribe.requestedQos⟩] <+:
        broker'.tx s := by
      rw [consistent.tx_eq,SessionMap.send_tx,if_pos rfl,h.tx_eq]
      exact List.prefix_rfl
    rw [Outcome.forall_err_ok,true_iff]
    exact .inl (consistent.room_of_prefix hsent).1

/-- The handling of a CONNECT is atomic exactly when the CONNACK finds room or the CONNECT tells
nothing new, that of a SUBSCRIBE exactly when the SUBACK finds room or the registry does not take
the subscription. -/
theorem handle_atomic_iff (h : Reachable next new broker) :
    (∀ b s connect, (b,s,.connect connect) ∈ handledIn broker →
      (b.Atomic (s,.connect connect) ↔ (b.tx s).length < Q ∨ b.Repeats s connect)) ∧
    ∀ b s subscribe, (b,s,.subscribe subscribe) ∈ handledIn broker →
      (b.Atomic (s,.subscribe subscribe) ↔
        (b.tx s).length < Q ∨ ¬ b.topics.Accepts s subscribe.topicFilter) := by
  have hc := consistent_of_reachable h
  constructor
  · intro b s connect hv
    obtain ⟨hb,hs⟩ := hc.mem_handledIn hv
    exact hb.connect_atomic_iff hs connect
  · intro b s subscribe hv
    obtain ⟨hb,hs⟩ := hc.mem_handledIn hv
    exact hb.subscribe_atomic_iff hs subscribe

/-- Session 1 subscribes before it has taken its PINGRESP. -/
def hastyCalls : List (Call 1 1) :=
  [.registerNewSession 1 60 0,.queuePacketReceivedFromClient 1 (.pingReq {}) 1,
    .processAllSessionPackets,.queuePacketReceivedFromClient 1 (.subscribe subscribeA) 2]

def hasty : PicoBroker 1 1 1 1 1 1 := (exec next new hastyCalls).get (by decide)

lemma hasty_reachable : Reachable next new hasty :=
  reachable_of_exec (Option.some_get (by decide)).symm

theorem handle_atomic_iff_hasty :
    (∀ b s connect, (b,s,.connect connect) ∈ handledIn hasty →
      (b.Atomic (s,.connect connect) ↔ (b.tx s).length < 1 ∨ b.Repeats s connect)) ∧
    ∀ b s subscribe, (b,s,.subscribe subscribe) ∈ handledIn hasty →
      (b.Atomic (s,.subscribe subscribe) ↔
        (b.tx s).length < 1 ∨ ¬ b.topics.Accepts s subscribe.topicFilter) :=
  handle_atomic_iff hasty_reachable

/-- The SUBSCRIBE fails because its SUBACK finds no room, and the subscription stays. -/
theorem handle_not_atomic : ¬ ∀ broker : PicoBroker 1 1 1 1 1 1, Reachable next new broker →
    ∀ b s packet, (b,s,packet) ∈ handledIn broker →
      ((∃ connect, packet = .connect connect) ∨ ∃ subscribe, packet = .subscribe subscribe) →
      b.Atomic (s,packet) := by
  intro hall
  have hatomic := hall hasty hasty_reachable hasty 1 (.subscribe subscribeA) (by decide)
    (.inr ⟨subscribeA,rfl⟩)
  have hfail : handleQueued (1,.subscribe subscribeA) hasty = .err (.sessionQueueFull 1 1)
      ((handleQueued (1,.subscribe subscribeA) hasty).state?.get (by decide)) := by decide
  have htopics := (hatomic _ _ hfail).1
  revert htopics
  decide

end PicoBroker

end Picobroker
