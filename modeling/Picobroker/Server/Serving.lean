import Picobroker.Rust.Script
import Picobroker.Broker.Pending
import Picobroker.Broker.Failures

/-! What the connection handlers of both servers do with the broker while they hold its lock. -/
namespace Picobroker
open Rust

variable {T P Q S M B : ℕ} {ε : Type}

namespace PicoBroker

/-- `while let Ok(Some(pkt)) = broker.dequeue_packet_to_send_to_client(session_id) { .. }`, for at most
`fuel` tests of the condition. The servers differ in what they `push` to. -/
def dequeueInto (push : List (Packet T P) → Packet T P → List (Packet T P)) (sessionId : ℕ) :
    ℕ → List (Packet T P) → Proc (PicoBroker T P Q S M B) ε (List (Packet T P))
  | 0,_ => ⟨fun _ => .abort .outOfFuel⟩
  | fuel+1,packets => do
    match ← (dequeuePacketToSendToClient sessionId).attempt with
    | .ok (some packet) => dequeueInto push sessionId fuel (push packets packet)
    | _ => pure packets

/-- A queue holds at most `Q` packets, so that the loop ends within `Q + 1` tests. -/
def dequeueAll (push : List (Packet T P) → Packet T P → List (Packet T P)) (sessionId : ℕ) :
    Proc (PicoBroker T P Q S M B) ε (List (Packet T P)) :=
  dequeueInto push sessionId (Q+1) []

/-- `get_sessions_with_pending_packets`, as a list. -/
def pendingSessions (broker : PicoBroker T P Q S M B) : Option (List ℕ) :=
  match broker.getSessionsWithPendingPackets with
  | .ok _ pending => some pending.asSlice
  | _ => none

/-- `queue_packet_received_from_client(..).and_then(|_| process_all_session_packets())`. -/
def receive (sessionId : ℕ) (packet : Packet T P) (currentTime : ℕ) :
    Proc (PicoBroker T P Q S M B) BrokerError Unit := do
  queuePacketReceivedFromClient sessionId packet currentTime
  processAllSessionPackets

/-- Under one lock: handle the packet, list the sessions to notify and take the packets for the own
client, or mark the own session as disconnected. -/
def serve (push : List (Packet T P) → Packet T P → List (Packet T P)) (sessionId : ℕ)
    (packet : Packet T P) (currentTime : ℕ) :
    Proc (PicoBroker T P Q S M B) ε (Except BrokerError (List ℕ × List (Packet T P))) := do
  match ← (receive sessionId packet currentTime).attempt with
  | .ok _ => do
    let pending ← Proc.lift (pendingSessions (← Proc.get))
    let packets ← dequeueAll push sessionId
    pure (.ok (pending,packets))
  | .error error => do
    Proc.discard (markSessionDisconnected sessionId)
    pure (.error error)

/-- What the handling of a packet puts into the queue towards the client of a session, also when it
fails. -/
def queuedFor (broker : PicoBroker T P Q S M B) (sessionId : ℕ) (packet : Packet T P)
    (currentTime : ℕ) (t : ℕ) : List (Packet T P) :=
  match (receive sessionId packet currentTime broker).state? with
  | some broker' => (broker'.tx t).drop (broker.tx t).length
  | none => []

/-! ### Sessions that nothing can be queued for -/

/-- The session subscribes to nothing. -/
def Unlisted (t : ℕ) (broker : PicoBroker T P Q S M B) : Prop :=
  broker.topics.EveryEntry (t ∉ ·)

/-- The session subscribes to nothing and its queues are empty. -/
structure Idle (t : ℕ) (broker : PicoBroker T P Q S M B) : Prop where
  unlisted : broker.Unlisted t
  rx : broker.rx t = []
  tx : broker.tx t = []

variable {broker broker' : PicoBroker T P Q S M B} {s t : ℕ}

lemma keeps_unlisted_onSessions {α : Type} (call : Proc (SessionRegistry T P Q S) BrokerError α) :
    Proc.Keeps (Unlisted (M := M) (B := B) t) (onSessions call) :=
  Proc.Keeps.zoom (J := fun _ => True) (fun _ _ _ _ => trivial) (fun _ _ => trivial)
    (fun _ _ h _ => h)

/-- A handler subscribes nobody but the session it works for. -/
lemma keeps_unlisted_handlePacket (hts : t ≠ s) (packet : Packet T P) :
    Proc.Keeps (Unlisted (Q := Q) (S := S) (M := M) (B := B) t) (handlePacket s packet) := by
  cases packet with
  | connect connect =>
    refine Proc.Keeps.bind ?_ (fun _ => (keeps_unlisted_onSessions _).bind (fun _ =>
      (keeps_unlisted_onSessions _).bind (fun _ => keeps_unlisted_onSessions _)))
    split_ifs
    · exact Proc.keeps_pure ()
    · exact keeps_unlisted_onSessions _
  | publish publish =>
    refine Proc.Keeps.bind (fun _ h => Outcome.leaves_ok.mpr h) (fun b => Proc.Keeps.bind ?_ ?_)
    · intro b' h
      cases b.topics.getSubscribers publish.topicName with
      | some subscribers => exact Outcome.leaves_ok.mpr h
      | none => exact Outcome.leaves_abort _ _
    · intro subscribers
      refine (Proc.keeps_forEach (fun _ _ => keeps_unlisted_onSessions _)).bind (fun _ => ?_)
      cases pubAckOf publish with
      | some pubAck => exact keeps_unlisted_onSessions _
      | none => exact Proc.keeps_pure ()
  | subscribe subscribe =>
    refine Proc.Keeps.bind ?_ (fun _ => keeps_unlisted_onSessions _)
    refine Proc.Keeps.zoom (J := TopicRegistry.EveryEntry (t ∉ ·)) ?_ (fun _ h => h) (fun _ _ _ h => h)
    intro topics h
    refine TopicRegistry.subscribe_everyEntry ?_ ?_ h
    · rwa [List.mem_singleton]
    · intro l hl _ hmem
      obtain hmem | hmem := List.mem_append.mp hmem
      · exact hl hmem
      · exact hts (List.mem_singleton.mp hmem)
  | pingReq pingReq => exact keeps_unlisted_onSessions _
  | disconnect disconnect => exact keeps_unlisted_onSessions _
  | _ => exact Proc.keeps_pure ()

/-- Nothing is queued for a session without subscriptions while others are handled. -/
lemma output_unlisted (h : broker.Unlisted t) {x : ℕ × Packet T P} (hts : t ≠ x.1) :
    output t (broker,x) = [] := by
  rw [output,if_neg hts,List.append_nil]
  obtain ⟨s,packet⟩ := x
  cases packet with
  | publish publish =>
    cases hget : broker.topics.getSubscribers publish.topicName with
    | some subscribers =>
      simp only [forwarded,hget]
      rw [if_neg]
      intro hmem
      obtain ⟨entry,he,-,hmem⟩ := TopicRegistry.matched_of_mem_getSubscribers hget hmem
      exact h entry he hmem
    | none => simp only [forwarded,hget]
  | _ => rfl

/-! ### The same sessions with more to send -/

/-- A broker after a packet of the session `s` and some others were handled. -/
structure Grown (s : ℕ) (broker broker' : PicoBroker T P Q S M B) : Prop where
  consistent : broker'.Consistent broker'.sessions.toMap
  ids : broker'.sessions.toMap.ids = broker.sessions.toMap.ids
  tx : ∀ t, broker.tx t <+: broker'.tx t
  idle : ∀ t, t ≠ s → broker.Idle t → broker'.Idle t

lemma Grown.trans {b₁ b₂ b₃ : PicoBroker T P Q S M B} (h : Grown s b₁ b₂) (h' : Grown s b₂ b₃) :
    Grown s b₁ b₃ :=
  ⟨h'.consistent,h'.ids.trans h.ids,fun t => (h.tx t).trans (h'.tx t),
    fun t hts ht => h'.idle t hts (h.idle t hts ht)⟩

variable {m m' : SessionMap T P}

/-- A call that touches neither the topics nor a queue, but for the received packets of `s`. -/
lemma Consistent.grown (h : broker.Consistent m) (h' : broker'.Consistent m')
    (htopics : broker'.topics = broker.topics) (hids : m'.ids = m.ids) (htx : m'.tx = m.tx)
    (hrx : ∀ t, t ≠ s → m'.rx t = m.rx t) : Grown s broker broker' := by
  refine ⟨h'.self.1,?_,?_,?_⟩
  · rw [h'.toMap_eq,h.toMap_eq,hids]
  · intro t
    rw [h.tx_eq,h'.tx_eq,htx]
  · intro t hts ht
    refine ⟨?_,?_,?_⟩
    · rw [Unlisted,htopics]
      exact ht.unlisted
    · rw [h'.rx_eq,hrx t hts,← h.rx_eq,ht.rx]
    · rw [h'.tx_eq,htx,← h.tx_eq,ht.tx]

/-- What a turn of the processing leaves of sessions other than its own. -/
lemma Consistent.handleQueued_idle (h : broker.Consistent broker.sessions.toMap)
    {x : ℕ × Packet T P} (hx : x.1 ∈ broker.sessions.toMap.ids) (hts : t ≠ x.1)
    (ht : broker.Idle t) : (handleQueued x broker).Leaves (Idle t) := by
  obtain ⟨b₁,htopics,hc,hrun⟩ := h.handleQueued_run hx
  have hframes := h.handleQueued_leaves hx x.2
  have hun : b₁.Unlisted t := by
    rw [Unlisted,htopics]
    exact ht.unlisted
  have hkeep := keeps_unlisted_handlePacket hts x.2 b₁ hun
  intro b₂ hb₂
  obtain ⟨sent,hsent,hpre⟩ := h.handleQueued_tx hx hb₂ t
  rw [output_unlisted ht.unlisted hts,List.prefix_nil] at hpre
  have hf := hframes b₂ hb₂
  rw [hrun] at hb₂
  refine ⟨hkeep b₂ hb₂,?_,?_⟩
  · rw [hf.consistent.rx_eq,hf.rx,SessionMap.setRx_rx,if_neg hts,← h.rx_eq,ht.rx]
  · rw [hsent,hpre,ht.tx,List.append_nil]

/-- Processing grows the broker, also when it fails. -/
lemma Consistent.processAllSessionPackets_grown (h : broker.Consistent broker.sessions.toMap)
    (s : ℕ) : (processAllSessionPackets broker).Leaves (Grown s broker) := by
  rw [h.processAllSessionPackets_eq]
  refine Proc.keeps_forEach (I := Grown s broker) ?_ broker
    ⟨h,rfl,fun _ => List.prefix_rfl,fun _ _ ht => ht⟩
  intro x hx b hb
  have hmem : x.1 ∈ b.sessions.toMap.ids := by
    rw [h.queued_eq] at hx
    rw [hb.ids]
    exact mem_ids_of_mem_queued hx
  have hne : broker.rx x.1 ≠ [] := by
    rw [h.queued_eq] at hx
    obtain ⟨u,-,hx⟩ := List.mem_flatMap.mp hx
    obtain ⟨p,hp,rfl⟩ := List.mem_map.mp hx
    rw [h.rx_eq]
    exact List.ne_nil_of_mem hp
  intro b' hb'
  have hf := hb.consistent.handleQueued_leaves hmem x.2 b' hb'
  refine ⟨hf.consistent,hf.ids.trans hb.ids,?_,?_⟩
  · intro t
    obtain ⟨sent,hsent,-⟩ := hb.consistent.handleQueued_tx hmem hb' t
    rw [hsent]
    exact (hb.tx t).trans (List.prefix_append _ _)
  · intro t hts ht
    have htx : t ≠ x.1 := by
      intro he
      rw [he] at ht
      exact hne ht.rx
    exact hb.consistent.handleQueued_idle hmem htx (hb.idle t hts ht) b' hb'

/-- What the handling of a packet of `s` can do. -/
inductive Received (broker : PicoBroker T P Q S M B) (s : ℕ) :
    Outcome (PicoBroker T P Q S M B) BrokerError Unit → Prop
  | absent (mem : s ∉ broker.sessions.toMap.ids) : Received broker s (.err (.sessionNotFound s) broker)
  | failed {error : BrokerError} {broker' : PicoBroker T P Q S M B}
      (mem : s ∈ broker.sessions.toMap.ids) (grown : Grown s broker broker') :
      Received broker s (.err error broker')
  | done {broker' : PicoBroker T P Q S M B} (mem : s ∈ broker.sessions.toMap.ids)
      (grown : Grown s broker broker') : Received broker s (.ok () broker')
  | panicked {why : Abort} (capacity : 65535 < Q ∨ 65535 < M ∨ 65535 < B) :
      Received broker s (.abort why)

lemma Consistent.receive (h : broker.Consistent broker.sessions.toMap) (s : ℕ) (packet : Packet T P)
    (currentTime : ℕ) : Received broker s (PicoBroker.receive s packet currentTime broker) := by
  rw [PicoBroker.receive,Proc.bind_apply]
  obtain ⟨hs,hq⟩ | ⟨hs,b₁,hq,-,htopics,hc⟩ | ⟨hq,hQ⟩ | ⟨hs,b₁,hq,htopics,hc⟩ :=
    h.queuePacketReceivedFromClient s packet currentTime
  · rw [hq]
    exact .absent hs
  · rw [hq]
    exact .failed hs (h.grown hc htopics rfl rfl (fun _ _ => rfl))
  · rw [hq]
    exact .panicked (.inl hQ)
  · rw [hq,Outcome.andThen_ok]
    have hqueued : Grown s broker b₁ := by
      refine h.grown hc htopics rfl rfl ?_
      intro t hts
      rw [SessionMap.setRx_rx,if_neg hts]
      rfl
    have hgrown := hqueued.consistent.processAllSessionPackets_grown s
    cases hp : processAllSessionPackets b₁ with
    | ok u b₂ =>
      rw [hp,Outcome.leaves_ok] at hgrown
      exact .done hs (hqueued.trans hgrown)
    | err error b₂ =>
      rw [hp,Outcome.leaves_err] at hgrown
      exact .failed hs (hqueued.trans hgrown)
    | abort why =>
      obtain ⟨b,m,x,hb,hx,ha⟩ := hqueued.consistent.processAllSessionPackets_abort hp
      refine .panicked ?_
      by_contra hsmall
      exact hb.handlePacket_returns hx (by omega) (by omega) (by omega) x.2 why ha

/-! ### The section as a whole -/

lemma Consistent.pendingSessions (h : broker.Consistent m) : broker.pendingSessions =
    some (m.ids.filter (fun id => !(m.tx id).isEmpty)) := by
  obtain ⟨pending,hp,hslice⟩ := h.getSessionsWithPendingPackets
  rw [PicoBroker.pendingSessions,hp]
  exact congrArg some hslice

/-- The loop pushes all packets of the queue in order. -/
lemma Consistent.dequeueInto {push : List (Packet T P) → Packet T P → List (Packet T P)} {fuel : ℕ}
    (h : broker.Consistent m) (hfuel : (m.tx s).length < fuel) (packets : List (Packet T P)) :
    ∃ broker' : PicoBroker T P Q S M B,
      (PicoBroker.dequeueInto push s fuel packets broker : Outcome _ ε _) =
        .ok ((m.tx s).foldl push packets) broker' ∧
      broker'.topics = broker.topics ∧ broker'.Consistent (m.setTx s []) ∧
      (s ∉ m.ids → broker' = broker) := by
  induction fuel generalizing broker m packets with
  | zero => exact absurd hfuel (Nat.not_lt_zero _)
  | succ fuel ih =>
    rw [PicoBroker.dequeueInto,Proc.bind_apply]
    obtain ⟨hs,hd⟩ | ⟨hs,b₁,hd,htopics,hc⟩ := h.dequeuePacketToSendToClient s
    · have htx : m.tx s = [] := (h.shows.find_none hs).2.2.2
      refine ⟨broker,?_,rfl,?_,fun _ => rfl⟩
      · rw [Proc.attempt_err hd,Outcome.andThen_ok,htx]
        rfl
      · rwa [← htx,SessionMap.setTx_self]
    · rw [Proc.attempt_ok hd,Outcome.andThen_ok]
      cases htx : m.tx s with
      | nil =>
        rw [htx,List.tail_nil] at hc
        exact ⟨b₁,rfl,htopics,hc,fun hs' => absurd hs hs'⟩
      | cons packet rest =>
        rw [htx,List.tail_cons] at hc
        rw [htx,List.length_cons] at hfuel
        have hrest : (m.setTx s rest).tx s = rest := by rw [SessionMap.setTx_tx,if_pos rfl]
        obtain ⟨b₂,hrun,ht₂,hc₂,-⟩ := ih hc (by rw [hrest]; omega) (push packets packet)
        rw [hrest] at hrun
        rw [SessionMap.setTx_setTx] at hc₂
        exact ⟨b₂,hrun,ht₂.trans htopics,hc₂,fun hs' => absurd hs hs'⟩

lemma Consistent.dequeueAll (h : broker.Consistent m)
    (push : List (Packet T P) → Packet T P → List (Packet T P)) (s : ℕ) : ∃ broker' : PicoBroker T P Q S M B,
      (PicoBroker.dequeueAll push s broker : Outcome _ ε _) = .ok ((m.tx s).foldl push []) broker' ∧
      broker'.topics = broker.topics ∧ broker'.Consistent (m.setTx s []) ∧
      (s ∉ m.ids → broker' = broker) :=
  h.dequeueInto (Nat.lt_succ_of_le (h.shows.tx_length_le s).1) []

/-- What serving a packet of `s` can do. Without the session nothing happens at all. -/
inductive Served (push : List (Packet T P) → Packet T P → List (Packet T P))
    (broker : PicoBroker T P Q S M B) (s : ℕ) (queued : ℕ → List (Packet T P)) :
    Outcome (PicoBroker T P Q S M B) ε (Except BrokerError (List ℕ × List (Packet T P))) → Prop
  | absent (mem : s ∉ broker.sessions.toMap.ids) (none : ∀ t, queued t = []) :
      Served push broker s queued (.ok (.error (.sessionNotFound s)) broker)
  | failed {error : BrokerError} {broker' : PicoBroker T P Q S M B}
      (mem : s ∈ broker.sessions.toMap.ids) (grown : Grown s broker broker')
      (tx : ∀ t, broker'.tx t = broker.tx t ++ queued t) :
      Served push broker s queued (.ok (.error error) broker')
  | done {processed broker' : PicoBroker T P Q S M B} (mem : s ∈ broker.sessions.toMap.ids)
      (grown : Grown s broker processed) (tx : ∀ t, processed.tx t = broker.tx t ++ queued t)
      (topics : broker'.topics = processed.topics)
      (consistent : broker'.Consistent (processed.sessions.toMap.setTx s [])) :
      Served push broker s queued (.ok (.ok
        (broker.sessions.toMap.ids.filter (fun id => !(processed.tx id).isEmpty),
          (processed.tx s).foldl push [])) broker')
  | panicked {why : Abort} (capacity : 65535 < Q ∨ 65535 < M ∨ 65535 < B) :
      Served push broker s queued (.abort why)

lemma Grown.queuedFor {packet : Packet T P} {currentTime : ℕ} (h : Grown s broker broker')
    (hr : (PicoBroker.receive s packet currentTime broker).state? = some broker') (t : ℕ) :
    broker'.tx t = broker.tx t ++ broker.queuedFor s packet currentTime t := by
  simp only [PicoBroker.queuedFor,hr]
  exact (List.prefix_iff_eq_append.mp (h.tx t)).symm

/-- Without the session nothing is queued for it. -/
lemma Consistent.queuedFor_missing {packet : Packet T P} {currentTime : ℕ}
    (h : broker.Consistent broker.sessions.toMap) (ht : t ∉ broker.sessions.ids) :
    broker.queuedFor s packet currentTime t = [] := by
  have hr := h.receive s packet currentTime
  have hgrown : ∀ {broker' : PicoBroker T P Q S M B}, Grown s broker broker' → broker'.tx t = [] := by
    intro broker' grown
    refine (grown.consistent.shows.find_none ?_).2.2.2
    rw [grown.ids]
    exact ht
  rw [PicoBroker.queuedFor]
  generalize PicoBroker.receive s packet currentTime broker = o at hr ⊢
  cases hr with
  | absent =>
    simp only [Outcome.state?_err,List.drop_length]
  | failed _ grown =>
    simp only [Outcome.state?_err,hgrown grown,List.drop_nil]
  | done _ grown =>
    simp only [Outcome.state?_ok,hgrown grown,List.drop_nil]
  | panicked => rfl

lemma Consistent.serve (h : broker.Consistent broker.sessions.toMap)
    (push : List (Packet T P) → Packet T P → List (Packet T P)) (s : ℕ) (packet : Packet T P)
    (currentTime : ℕ) :
    Served push broker s (broker.queuedFor s packet currentTime)
      (PicoBroker.serve push s packet currentTime broker : Outcome _ ε _) := by
  have hr := h.receive s packet currentTime
  rw [PicoBroker.serve,Proc.bind_apply]
  cases ho : PicoBroker.receive s packet currentTime broker with
  | ok u b₁ =>
    rw [ho] at hr
    cases hr with
    | done mem grown =>
      obtain ⟨b₂,hd,htopics,hc,-⟩ := grown.consistent.dequeueAll (ε := ε) push s
      have htx : ∀ t, b₁.sessions.toMap.tx t = b₁.tx t := fun t => (grown.consistent.tx_eq t).symm
      have hpending := grown.consistent.pendingSessions
      simp only [htx,grown.ids] at hd hpending
      rw [Proc.attempt_ok ho,Outcome.andThen_ok]
      simp only [Proc.bind_apply,Proc.get_apply,Outcome.andThen_ok,hpending,Proc.lift_some,hd]
      exact .done mem grown (grown.queuedFor (by rw [ho]; rfl)) htopics hc
  | err error b₁ =>
    rw [ho] at hr
    rw [Proc.attempt_err ho,Outcome.andThen_ok]
    cases hr with
    | absent mem =>
      obtain ⟨-,hm⟩ | ⟨hs,-⟩ := h.markSessionDisconnected s
      · simp only [Proc.bind_apply,Proc.discard_err hm,Outcome.andThen_ok]
        refine .absent mem ?_
        intro t
        simp only [PicoBroker.queuedFor,ho,Outcome.state?_err,List.drop_length]
      · exact absurd hs mem
    | failed mem grown =>
      obtain ⟨hs,-⟩ | ⟨-,b₂,hm,htopics,hc⟩ := grown.consistent.markSessionDisconnected s
      · rw [grown.ids] at hs
        exact absurd mem hs
      · simp only [Proc.bind_apply,Proc.discard_ok hm,Outcome.andThen_ok]
        refine .failed mem
          (grown.trans (grown.consistent.grown hc htopics rfl rfl (fun _ _ => rfl))) ?_
        intro t
        rw [hc.tx_eq,SessionMap.setProfile_tx,← grown.consistent.tx_eq]
        exact grown.queuedFor (by rw [ho]; rfl) t
  | abort why =>
    rw [ho] at hr
    rw [Proc.attempt_abort ho,Outcome.andThen_abort]
    cases hr with
    | panicked capacity => exact .panicked capacity

/-- After processing that succeeded, every session with packets to send is on the list of those to
notify. -/
lemma Consistent.served_tx {push : List (Packet T P) → Packet T P → List (Packet T P)}
    (h : broker.Consistent broker.sessions.toMap) {packet : Packet T P} {currentTime : ℕ}
    {sessions : List ℕ} {packets : List (Packet T P)}
    (call : (PicoBroker.serve push s packet currentTime broker : Outcome _ ε _) =
      .ok (.ok (sessions,packets)) broker') (t : ℕ) : broker'.tx t = [] ∨ t ∈ sessions := by
  have hs := h.serve (ε := ε) push s packet currentTime
  rw [call] at hs
  cases hs with
  | @done processed _ mem grown tx topics consistent =>
    rw [consistent.tx_eq,SessionMap.setTx_tx]
    split_ifs with ht
    · exact .inl rfl
    · by_cases hnil : processed.sessions.toMap.tx t = []
      · exact .inl hnil
      · have hmem : t ∈ processed.sessions.toMap.ids := by
          by_contra hn
          exact hnil (grown.consistent.shows.find_none hn).2.2.2
        rw [grown.ids] at hmem
        refine .inr (List.mem_filter.mpr ⟨hmem,?_⟩)
        rw [grown.consistent.tx_eq]
        simpa using hnil

/-! ### Only the public operations -/

/-- The section makes public calls only, so that it leaves a broker that they reach. -/
def Calls {α : Type} (p : Proc (PicoBroker T P Q S M B) ε α) : Prop :=
  ∀ broker, (p broker).Leaves (Reachable next broker)

section Calls

variable {α β : Type} {p : Proc (PicoBroker T P Q S M B) ε α}

lemma calls_of_next (call : Call T P) (h : ∀ broker, (p broker).state? = broker.next call) :
    Calls p := by
  intro broker broker' hb
  rw [h] at hb
  exact (Reachable.refl next broker).step hb

lemma calls_pure (a : α) : Calls (pure a : Proc (PicoBroker T P Q S M B) ε α) :=
  fun broker => Outcome.leaves_ok.mpr (.refl next broker)

lemma Calls.bind (hp : Calls p) {f : α → Proc (PicoBroker T P Q S M B) ε β} (hf : ∀ a, Calls (f a)) :
    Calls (p >>= f) := by
  intro broker
  refine (hp broker).andThen ?_
  intro a b _ hb b' hb'
  obtain ⟨h,hrun⟩ := hf a b b' hb'
  exact hb.run hrun

lemma Calls.attempt {ε' : Type} (hp : Calls p) : Calls (p.attempt : Proc _ ε' (Except ε α)) :=
  fun broker => Proc.attempt_leaves (hp broker)

lemma Calls.discard {ε' : Type} (hp : Calls p) : Calls (p.discard : Proc _ ε' Unit) :=
  fun broker => Proc.discard_leaves (hp broker)

lemma calls_dequeueInto (push : List (Packet T P) → Packet T P → List (Packet T P)) (s fuel : ℕ)
    (packets : List (Packet T P)) :
    Calls (dequeueInto push s fuel packets : Proc (PicoBroker T P Q S M B) ε _) := by
  induction fuel generalizing packets with
  | zero => exact fun _ => Outcome.leaves_abort _ _
  | succ fuel ih =>
    have hcall : Calls (dequeuePacketToSendToClient s : Proc (PicoBroker T P Q S M B) _ _) :=
      calls_of_next (.dequeuePacketToSendToClient s) (fun _ => rfl)
    refine hcall.attempt.bind ?_
    intro reply
    cases reply with
    | ok packet =>
      cases packet with
      | some packet => exact ih _
      | none => exact calls_pure _
    | error e => exact calls_pure _

lemma calls_serve (push : List (Packet T P) → Packet T P → List (Packet T P)) (s : ℕ)
    (packet : Packet T P) (currentTime : ℕ) :
    Calls (serve push s packet currentTime : Proc (PicoBroker T P Q S M B) ε _) := by
  have hqueue : Calls (queuePacketReceivedFromClient s packet currentTime :
      Proc (PicoBroker T P Q S M B) _ _) :=
    calls_of_next (.queuePacketReceivedFromClient s packet currentTime) (fun _ => rfl)
  have hprocess : Calls (processAllSessionPackets : Proc (PicoBroker T P Q S M B) _ _) :=
    calls_of_next .processAllSessionPackets (fun _ => rfl)
  have hmark : Calls (markSessionDisconnected s : Proc (PicoBroker T P Q S M B) _ _) :=
    calls_of_next (.markSessionDisconnected s) (fun _ => rfl)
  refine Calls.bind (hqueue.bind (fun _ => hprocess)).attempt ?_
  intro reply
  cases reply with
  | ok u =>
    refine Calls.bind (fun b => Outcome.leaves_ok.mpr (.refl next b)) (fun b => Calls.bind ?_ ?_)
    · intro b'
      cases b.pendingSessions with
      | some pending => exact Outcome.leaves_ok.mpr (.refl next b')
      | none => exact Outcome.leaves_abort _ _
    · intro pending
      exact (calls_dequeueInto push s (Q+1) []).bind (fun _ => calls_pure _)
  | error e => exact hmark.discard.bind (fun _ => calls_pure _)

end Calls

end PicoBroker

end Picobroker
