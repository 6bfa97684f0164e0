import Picobroker.Rust.Runs
import Picobroker.Session.Map

/-! The session registry refines a bounded finite map: every operation, on every exit, is an operation
on the map. -/
namespace Picobroker
open Rust

variable {T P Q S : ℕ}

def Profile.expirationInfo (profile : Profile) (sessionId currentTime : ℕ) : ExpirationInfo where
  sessionId
  currentTime
  lastActivity := profile.lastActivity
  keepAliveSecs := profile.keepAliveSecs

namespace SessionRegistry

/-- The operations that change a registry. -/
inductive Call (T P : ℕ)
  | registerNewSession (sessionId : ℕ) (keepAliveSecs : UInt16) (currentTime : ℕ)
  | removeSession (sessionId : ℕ)
  | markConnected (sessionId : ℕ)
  | markDisconnected (sessionId : ℕ)
  | updateSessionActivity (sessionId currentTime : ℕ)
  | updateClientId (sessionId : ℕ) (clientId : ClientId)
  | updateKeepAlive (sessionId : ℕ) (keepAliveSecs : UInt16)
  | queueRxPacket (sessionId : ℕ) (packet : Packet T P)
  | queueTxPacket (sessionId : ℕ) (packet : Packet T P)
  | dequeueRxPacket (sessionId : ℕ)
  | dequeueTxPacket (sessionId : ℕ)

/-- The registry after a call that returned, with `Ok` or with `Err`. -/
def next (registry : SessionRegistry T P Q S) : Call T P → Option (SessionRegistry T P Q S)
  | .registerNewSession sessionId keepAliveSecs currentTime =>
    (registerNewSession sessionId keepAliveSecs currentTime registry).state?
  | .removeSession sessionId => some (registry.removeSession sessionId).2
  | .markConnected sessionId => (markConnected sessionId registry).state?
  | .markDisconnected sessionId => (markDisconnected sessionId registry).state?
  | .updateSessionActivity sessionId currentTime =>
    (updateSessionActivity sessionId currentTime registry).state?
  | .updateClientId sessionId clientId => (updateClientId sessionId clientId registry).state?
  | .updateKeepAlive sessionId keepAliveSecs =>
    (updateKeepAlive sessionId keepAliveSecs registry).state?
  | .queueRxPacket sessionId packet => (queueRxPacket sessionId packet registry).state?
  | .queueTxPacket sessionId packet => (queueTxPacket sessionId packet registry).state?
  | .dequeueRxPacket sessionId => (dequeueRxPacket sessionId registry).state?
  | .dequeueTxPacket sessionId => (dequeueTxPacket sessionId registry).state?

variable {registry : SessionRegistry T P Q S} {m : SessionMap T P} {id : ℕ}

/-- A keyed call that changes the metadata of its session. -/
structure Updates (registry : SessionRegistry T P Q S) (m : SessionMap T P) (id : ℕ)
    (g : Profile → Profile) (call : Proc (SessionRegistry T P Q S) BrokerError Unit) : Prop where
  missing : id ∉ m.ids → call registry = .err (.sessionNotFound id) registry
  found : id ∈ m.ids → ∃ registry', call registry = .ok () registry' ∧
    registry'.Shows (m.setProfile id g)

/-- A keyed call that appends to a queue of its session. The map `m'` has the longer queue. -/
structure Enlarges (registry : SessionRegistry T P Q S) (m : SessionMap T P) (id : ℕ)
    (queue : List (Packet T P)) (m' : SessionMap T P)
    (call : Proc (SessionRegistry T P Q S) BrokerError Unit) : Prop where
  missing : id ∉ m.ids → call registry = .err (.sessionNotFound id) registry
  full : id ∈ m.ids → queue.length = Q → call registry = .err (.sessionQueueFull id Q) registry
  room : id ∈ m.ids → queue.length < Q → ∃ registry', call registry = .ok () registry' ∧
    registry'.Shows m'

/-- A keyed call that takes the front packet off a queue of its session. The map `m'` has the rest. -/
structure Shortens (registry : SessionRegistry T P Q S) (m : SessionMap T P) (id : ℕ)
    (queue : List (Packet T P)) (m' : SessionMap T P)
    (call : Proc (SessionRegistry T P Q S) BrokerError (Option (Packet T P))) : Prop where
  missing : id ∉ m.ids → call registry = .err (.sessionNotFound id) registry
  found : id ∈ m.ids → ∃ registry', call registry = .ok queue.head? registry' ∧ registry'.Shows m'

/-- Registering adds one fresh session or fails without a change. -/
structure Adds (registry : SessionRegistry T P Q S) (m : SessionMap T P) (id : ℕ)
    (keepAliveSecs : UInt16) (currentTime : ℕ) : Prop where
  full : S ≤ m.ids.length → registerNewSession id keepAliveSecs currentTime registry =
    .err (.maxSessionsReached m.ids.length S) registry
  known : m.ids.length < S → id ∈ m.ids → registerNewSession id keepAliveSecs currentTime registry =
    .err (.sessionAlreadyExists id) registry
  fresh : m.ids.length < S → id ∉ m.ids → ∃ registry',
    registerNewSession id keepAliveSecs currentTime registry = .ok () registry' ∧
      registry'.Shows (m.add id ⟨none,keepAliveSecs,.connecting,currentTime⟩)

/-- Every operation of the registry is an operation on the map. -/
structure RefinesMap (registry : SessionRegistry T P Q S) (m : SessionMap T P) : Prop where
  registerNewSession : ∀ id keepAliveSecs currentTime,
    registry.Adds m id keepAliveSecs currentTime
  removeSession : ∀ id, (registry.removeSession id).1 = decide (id ∈ m.ids) ∧
    (registry.removeSession id).2.Shows (m.remove id)
  markConnected : ∀ id, registry.Updates m id (fun p => { p with state := .connected })
    (markConnected id)
  markDisconnected : ∀ id, registry.Updates m id (fun p => { p with state := .disconnected })
    (markDisconnected id)
  updateSessionActivity : ∀ id currentTime, registry.Updates m id
    (fun p => { p with lastActivity := currentTime }) (updateSessionActivity id currentTime)
  updateClientId : ∀ id clientId, registry.Updates m id
    (fun p => { p with clientId := some clientId }) (updateClientId id clientId)
  updateKeepAlive : ∀ id keepAliveSecs, registry.Updates m id (fun p => { p with keepAliveSecs })
    (updateKeepAlive id keepAliveSecs)
  queueRxPacket : ∀ id packet, registry.Enlarges m id (m.rx id) (m.setRx id (m.rx id ++ [packet]))
    (queueRxPacket id packet)
  queueTxPacket : ∀ id packet, registry.Enlarges m id (m.tx id) (m.setTx id (m.tx id ++ [packet]))
    (queueTxPacket id packet)
  dequeueRxPacket : ∀ id, registry.Shortens m id (m.rx id) (m.setRx id (m.rx id).tail)
    (dequeueRxPacket id)
  dequeueTxPacket : ∀ id, registry.Shortens m id (m.tx id) (m.setTx id (m.tx id).tail)
    (dequeueTxPacket id)
  hasPendingTxPackets : ∀ id, registry.hasPendingTxPackets id = !(m.tx id).isEmpty
  getAllSessions : registry.getAllSessions.reduceOption = m.ids
  getDisconnectedSessions : registry.getDisconnectedSessions.reduceOption =
    m.ids.filter (fun id => (m.profile id).any (·.state = .disconnected))
  getExpiredSessions : ∀ currentTime, (registry.getExpiredSessions currentTime).reduceOption =
    m.ids.filterMap (fun id => ((m.profile id).map (·.expirationInfo id currentTime)).filter
      (·.isExpired))

lemma Shows.updates {f : Session T P Q → Session T P Q} {g : Profile → Profile}
    (h : registry.Shows m) (hid : ∀ s, (f s).sessionId = s.sessionId)
    (hrx : ∀ s, (f s).rxQueue = s.rxQueue) (htx : ∀ s, (f s).txQueue = s.txQueue)
    (hg : ∀ s, (f s).profile = g s.profile) :
    registry.Updates m id g (withSession id (Proc.modify f)) where
  missing hn := withSession_missing h hn _
  found hmem := withSession_profile hid hrx htx hg h hmem

lemma Shows.adds (h : registry.Shows m) (hS : S ≤ 65535) (keepAliveSecs : UInt16)
    (currentTime : ℕ) : registry.Adds m id keepAliveSecs currentTime := by
  have hj := registerNewSession_joins h id keepAliveSecs currentTime
  refine ⟨?_,?_,?_⟩
  · intro hfull
    rw [h.length_eq] at hfull ⊢
    change S ≤ registry.sessions.len at hfull
    rw [SessionRegistry.registerNewSession,Proc.bind_apply,Proc.get_apply,Outcome.andThen_ok,
      Proc.bind_apply,Proc.failIf_pos hfull]
    rfl
  · intro hroom hmem
    generalize SessionRegistry.registerNewSession id keepAliveSecs currentTime registry = o at hj ⊢
    cases hj with
    | full full => omega
    | «exists» => rfl
    | overflow _ capacity => omega
    | joined fresh => exact absurd hmem fresh
  · intro hroom hfresh
    generalize SessionRegistry.registerNewSession id keepAliveSecs currentTime registry = o at hj ⊢
    cases hj with
    | full full => omega
    | «exists» mem => exact absurd mem hfresh
    | overflow _ capacity => omega
    | @joined registry' _ shows => exact ⟨registry',rfl,shows⟩

lemma Shows.queueRxPacket (h : registry.Shows m) (hQ : Q ≤ 65535) (packet : Packet T P) :
    registry.Enlarges m id (m.rx id) (m.setRx id (m.rx id ++ [packet]))
      (queueRxPacket id packet) where
  missing hn := withSession_missing h hn _
  full hmem hfull := by
    have hr := queueRxPacket_receives h hmem packet
    generalize SessionRegistry.queueRxPacket id packet registry = o at hr ⊢
    cases hr with
    | full => rfl
    | overflow _ capacity => omega
    | received room => omega
  room hmem hroom := by
    have hr := queueRxPacket_receives h hmem packet
    generalize SessionRegistry.queueRxPacket id packet registry = o at hr ⊢
    cases hr with
    | full full => omega
    | overflow _ capacity => omega
    | @received registry' _ _ shows => exact ⟨registry',rfl,shows⟩

lemma Shows.queueTxPacket (h : registry.Shows m) (hQ : Q ≤ 65535) (packet : Packet T P) :
    registry.Enlarges m id (m.tx id) (m.setTx id (m.tx id ++ [packet]))
      (queueTxPacket id packet) where
  missing hn := withSession_missing h hn _
  full hmem hfull := by
    have hs := queueTxPacket_sends h hmem packet
    generalize SessionRegistry.queueTxPacket id packet registry = o at hs ⊢
    cases hs with
    | full => rfl
    | overflow _ capacity => omega
    | sent room => omega
  room hmem hroom := by
    have hs := queueTxPacket_sends h hmem packet
    generalize SessionRegistry.queueTxPacket id packet registry = o at hs ⊢
    cases hs with
    | full full => omega
    | overflow _ capacity => omega
    | @sent registry' _ _ shows => exact ⟨registry',rfl,shows⟩

/-- The profile of a registered session. -/
lemma Shows.profile_eq (h : registry.Shows m) {session : Session T P Q} (hs : session ∈ registry.all) :
    m.profile session.sessionId = some session.profile := by
  rw [← h.toMap_eq]
  exact congrArg (Option.map Session.profile) (h.wellFormed.findSession_of_mem hs)

/-- The array of a listing has a slot for every session, so that it lists all that are selected. -/
lemma Shows.reduceOption_fillSlots {β : Type} (h : registry.Shows m)
    {select : Session T P Q → Option β} {select' : ℕ → Option β}
    (hselect : ∀ session ∈ registry.all, select session = select' session.sessionId) :
    (fillSlots select registry.all (List.replicate S none) 0).reduceOption =
      m.ids.filterMap select' := by
  have hlist : registry.all.filterMap select = m.ids.filterMap select' := by
    rw [h.ids_eq,ids,List.filterMap_map]
    exact List.filterMap_congr hselect
  have hle := List.length_filterMap_le select' m.ids
  rw [Rust.reduceOption_fillSlots,hlist,List.take_of_length_le (hle.trans h.length_le)]

/-- The disconnected sessions are listed, in the order of registration. -/
lemma Shows.getDisconnectedSessions_eq (h : registry.Shows m) :
    registry.getDisconnectedSessions.reduceOption =
      m.ids.filter (fun id => (m.profile id).any (·.state = .disconnected)) := by
  rw [← List.filterMap_eq_filter]
  apply h.reduceOption_fillSlots
  intro session hs
  rw [Option.guard,h.profile_eq hs,Option.any_some]
  simp only [decide_eq_true_eq]
  rfl

lemma Shows.getExpiredSessions_eq (h : registry.Shows m) (currentTime : ℕ) :
    (registry.getExpiredSessions currentTime).reduceOption =
      m.ids.filterMap (fun id => ((m.profile id).map (·.expirationInfo id currentTime)).filter
        (·.isExpired)) := by
  apply h.reduceOption_fillSlots
  intro session hs
  rw [h.profile_eq hs,Option.map_some,Option.filter_some]
  rfl

/-- A queue is pending exactly when it has a packet to take. -/
lemma Shows.hasPendingTxPackets_eq (h : registry.Shows m) (id : ℕ) :
    registry.hasPendingTxPackets id = !(m.tx id).isEmpty := by
  by_cases hmem : id ∈ m.ids
  · obtain ⟨session,hfind,-,hfilled,-,-,ht⟩ := h.find hmem
    have hempty : session.txQueue.isEmpty = session.tx.isEmpty := by
      rw [Bool.eq_iff_iff,HeaplessVec.isEmpty,beq_iff_eq,← HeaplessVec.asSlice_length,
        hfilled.tx,List.length_map,List.length_eq_zero_iff,List.isEmpty_iff]
    rw [SessionRegistry.hasPendingTxPackets,hfind,ht,Option.map_some,Option.getD_some,hempty]
  · obtain ⟨hfind,-,-,ht⟩ := h.find_none hmem
    rw [SessionRegistry.hasPendingTxPackets,hfind,ht]
    rfl

lemma Shows.refinesMap (h : registry.Shows m) (hS : S ≤ 65535) (hQ : Q ≤ 65535) :
    registry.RefinesMap m where
  registerNewSession _ := h.adds hS
  removeSession id := ⟨removeSession_fst h id,removeSession_shows h id⟩
  markConnected _ := h.updates (fun _ => rfl) (fun _ => rfl) (fun _ => rfl) (fun _ => rfl)
  markDisconnected _ := h.updates (fun _ => rfl) (fun _ => rfl) (fun _ => rfl) (fun _ => rfl)
  updateSessionActivity _ _ := h.updates (fun _ => rfl) (fun _ => rfl) (fun _ => rfl) (fun _ => rfl)
  updateClientId _ _ := h.updates (fun _ => rfl) (fun _ => rfl) (fun _ => rfl) (fun _ => rfl)
  updateKeepAlive _ _ := h.updates (fun _ => rfl) (fun _ => rfl) (fun _ => rfl) (fun _ => rfl)
  queueRxPacket _ := h.queueRxPacket hQ
  queueTxPacket _ := h.queueTxPacket hQ
  dequeueRxPacket _ := ⟨fun hn => withSession_missing h hn _,fun hmem => dequeueRxPacket_shows h hmem⟩
  dequeueTxPacket _ := ⟨fun hn => withSession_missing h hn _,fun hmem => dequeueTxPacket_shows h hmem⟩
  hasPendingTxPackets := h.hasPendingTxPackets_eq
  getAllSessions :=
    (h.reduceOption_fillSlots (fun _ _ => rfl)).trans List.filterMap_some
  getDisconnectedSessions := h.getDisconnectedSessions_eq
  getExpiredSessions := h.getExpiredSessions_eq

section Keeps

variable {f : Session T P Q → Session T P Q}

/-- A keyed call whose body keeps the id and fills no slot of a queue with nothing keeps the registry
well formed. -/
lemma keeps_withSession {α : Type} {body : Proc (Session T P Q) BrokerError α}
    (h : Proc.Keeps (fun session => session.sessionId = id ∧ session.Filled) body) :
    Proc.Keeps WellFormed (withSession id body : Proc (SessionRegistry T P Q S) BrokerError α) := by
  intro registry hw
  obtain ⟨-,hs⟩ | ⟨session,put,hfind,-,hput,hs⟩ := withSession_cases id body registry
  · rw [hs,Outcome.leaves_err]
    exact hw
  · rw [hs]
    have hbody := h session ⟨findSession_id hfind,hw.filled _ (mem_all_of_findSession hfind)⟩
    exact hbody.mapState (fun session' hs' => (hput session' hs'.1).wellFormed hw hs'.2)

lemma keeps_modify (hid : ∀ s, (f s).sessionId = s.sessionId) (hrx : ∀ s, (f s).rxQueue = s.rxQueue)
    (htx : ∀ s, (f s).txQueue = s.txQueue) : Proc.Keeps WellFormed
      (withSession id (Proc.modify f) : Proc (SessionRegistry T P Q S) BrokerError Unit) := by
  apply keeps_withSession
  intro session ⟨hs,hfilled⟩
  rw [Proc.modify_apply,Outcome.leaves_ok]
  have hrx' := (congrArg HeaplessVec.asSlice (hrx session)).trans hfilled.rx
  have htx' := (congrArg HeaplessVec.asSlice (htx session)).trans hfilled.tx
  exact ⟨(hid session).trans hs,Session.filled_of_eq hrx' htx'⟩

/-- A queue of packets. -/
lemma keeps_push (packet : Packet T P) : Proc.Keeps
    (fun queue : HeaplessVec (Option (Packet T P)) Q => ∃ items : List _, queue.asSlice = items.map some)
    (HeaplessVec.push (some packet)) := by
  intro queue ⟨items,hq⟩
  obtain ⟨-,hp⟩ | ⟨-,-,hp⟩ | ⟨-,-,queue',hp,hq'⟩ := HeaplessVec.push_cases queue (some packet)
  · rw [hp,Outcome.leaves_err]
    exact ⟨items,hq⟩
  · rw [hp]
    exact Outcome.leaves_abort _ _
  · rw [hp,Outcome.leaves_ok]
    exact ⟨items ++ [packet],by rw [hq',hq,List.map_append]; rfl⟩

end Keeps

/-- A call that returns keeps the registry well formed. -/
lemma WellFormed.next {call : Call T P} {registry' : SessionRegistry T P Q S}
    (h : registry.WellFormed) (hn : registry.next call = some registry') : registry'.WellFormed := by
  cases call with
  | registerNewSession id keepAliveSecs currentTime =>
    change (SessionRegistry.registerNewSession id keepAliveSecs currentTime registry).state? = _ at hn
    have hs := registerNewSession_spec id keepAliveSecs currentTime registry
    generalize SessionRegistry.registerNewSession id keepAliveSecs currentTime registry = o at hs hn
    cases hs with
    | full => exact Option.some.inj hn ▸ h
    | «exists» => exact Option.some.inj hn ▸ h
    | overflow => cases hn
    | registered _ _ wellFormed => exact Option.some.inj hn ▸ wellFormed h
  | removeSession id =>
    cases hn
    exact (removeSession_shows h.shows id).wellFormed
  | markConnected id =>
    have hk : Proc.Keeps WellFormed (SessionRegistry.markConnected (T := T) (P := P) (Q := Q) (S := S) id) :=
      keeps_modify (fun _ => rfl) (fun _ => rfl) (fun _ => rfl)
    exact hk registry h registry' hn
  | markDisconnected id =>
    have hk : Proc.Keeps WellFormed (SessionRegistry.markDisconnected (T := T) (P := P) (Q := Q) (S := S) id) :=
      keeps_modify (fun _ => rfl) (fun _ => rfl) (fun _ => rfl)
    exact hk registry h registry' hn
  | updateSessionActivity id currentTime =>
    have hk : Proc.Keeps WellFormed (SessionRegistry.updateSessionActivity (T := T) (P := P) (Q := Q) (S := S) id currentTime) :=
      keeps_modify (fun _ => rfl) (fun _ => rfl) (fun _ => rfl)
    exact hk registry h registry' hn
  | updateClientId id clientId =>
    have hk : Proc.Keeps WellFormed (SessionRegistry.updateClientId (T := T) (P := P) (Q := Q) (S := S) id clientId) :=
      keeps_modify (fun _ => rfl) (fun _ => rfl) (fun _ => rfl)
    exact hk registry h registry' hn
  | updateKeepAlive id keepAliveSecs =>
    have hk : Proc.Keeps WellFormed (SessionRegistry.updateKeepAlive (T := T) (P := P) (Q := Q) (S := S) id keepAliveSecs) :=
      keeps_modify (fun _ => rfl) (fun _ => rfl) (fun _ => rfl)
    exact hk registry h registry' hn
  | queueRxPacket id packet =>
    refine keeps_withSession (Proc.Keeps.mapErr ?_ _) registry h registry' hn
    refine ((keeps_push packet).mapErr _).zoom ?_ ?_
    · intro session hs
      exact ⟨session.rx,hs.2.rx⟩
    · intro session queue hs ⟨items,hq⟩
      exact ⟨hs.1,Session.filled_of_eq hq hs.2.tx⟩
  | queueTxPacket id packet =>
    refine keeps_withSession (Proc.Keeps.mapErr ?_ _) registry h registry' hn
    refine ((keeps_push packet).mapErr _).zoom ?_ ?_
    · intro session hs
      exact ⟨session.tx,hs.2.tx⟩
    · intro session queue hs ⟨items,hq⟩
      exact ⟨hs.1,Session.filled_of_eq hs.2.rx hq⟩
  | dequeueRxPacket id =>
    refine keeps_withSession ?_ registry h registry' hn
    intro session hs
    exact Outcome.leaves_ok.mpr ⟨hs.1,Session.filled_of_eq (dequeueFront_filled hs.2.rx).2 hs.2.tx⟩
  | dequeueTxPacket id =>
    refine keeps_withSession ?_ registry h registry' hn
    intro session hs
    exact Outcome.leaves_ok.mpr ⟨hs.1,Session.filled_of_eq hs.2.rx (dequeueFront_filled hs.2.tx).2⟩

lemma wellFormed_of_reachable (h : Reachable next new registry) : registry.WellFormed :=
  h.invariant (I := WellFormed) (fun _ _ _ hr hn => hr.next hn) wellFormed_new

/-- Every registry that the operations reach has distinct ids, keeps its limits and holds packets only
in its queues, and its operations act on the map it stands for. -/
theorem registry_refines_map (hS : S ≤ 65535) (hQ : Q ≤ 65535) (h : Reachable next new registry) :
    registry.ids.Nodup ∧ registry.ids.length ≤ S ∧
    (∀ session ∈ registry.all, session.rxQueue.length ≤ Q ∧ session.txQueue.length ≤ Q ∧
      session.Filled) ∧ registry.RefinesMap registry.toMap := by
  have hw := wellFormed_of_reachable h
  refine ⟨hw.distinct,hw.shows.length_le,?_,hw.shows.refinesMap hS hQ⟩
  intro session hs
  exact ⟨session.rxQueue.length_le,session.txQueue.length_le,hw.filled session hs⟩

/-- Two sessions join, one connects and gets a packet, the other leaves. -/
def serveCalls : List (Call 1 1) :=
  [.registerNewSession 1 60 0,.registerNewSession 2 60 0,.markConnected 1,
    .queueTxPacket 1 (.pingResp {}),.removeSession 2]

def served : SessionRegistry 1 1 1 2 := (exec next new serveCalls).get (by decide)

theorem registry_refines_map_served : served.ids.Nodup ∧ served.ids.length ≤ 2 ∧
    (∀ session ∈ served.all, session.rxQueue.length ≤ 1 ∧ session.txQueue.length ≤ 1 ∧
      session.Filled) ∧ served.RefinesMap served.toMap :=
  registry_refines_map (by decide) (by decide) (reachable_of_exec (Option.some_get (by decide)).symm)

end SessionRegistry

end Picobroker
