import Picobroker.Session.Registry

/-! What the session registry is for: a bounded map from ids to sessions, in the order of their
registration, each with its metadata and two queues. The operations of the registry are operations on
this map. -/
namespace Picobroker
open Rust

variable {T P Q S : ℕ}

/-- The metadata of a session. -/
structure Profile where
  clientId : Option ClientId
  keepAliveSecs : UInt16
  state : SessionState
  lastActivity : ℕ
  deriving DecidableEq, Repr

def Session.profile (session : Session T P Q) : Profile :=
  ⟨session.clientId,session.keepAliveSecs,session.state,session.lastActivity⟩

/-- The sessions as the rest of the program sees them. An id that is not registered has no profile and
empty queues. -/
@[ext]
structure SessionMap (T P : ℕ) where
  ids : List ℕ
  profile : ℕ → Option Profile
  rx : ℕ → List (Packet T P)
  tx : ℕ → List (Packet T P)

namespace SessionMap

def empty : SessionMap T P := ⟨[],fun _ => none,fun _ => [],fun _ => []⟩

/-- A session joins the map, or loses everything it had. -/
def setAll (m : SessionMap T P) (id : ℕ) (profile : Option Profile) (rx tx : List (Packet T P)) :
    SessionMap T P :=
  { m with
    profile := Function.update m.profile id profile
    rx := Function.update m.rx id rx
    tx := Function.update m.tx id tx }

def setProfile (m : SessionMap T P) (id : ℕ) (f : Profile → Profile) : SessionMap T P :=
  { m with profile := Function.update m.profile id ((m.profile id).map f) }

def setRx (m : SessionMap T P) (id : ℕ) (rx : List (Packet T P)) : SessionMap T P :=
  { m with rx := Function.update m.rx id rx }

def setTx (m : SessionMap T P) (id : ℕ) (tx : List (Packet T P)) : SessionMap T P :=
  { m with tx := Function.update m.tx id tx }

/-- Append a packet to the queue towards the client. -/
def send (m : SessionMap T P) (id : ℕ) (packet : Packet T P) : SessionMap T P :=
  m.setTx id (m.tx id ++ [packet])

/-- A new session, behind the others. -/
def add (m : SessionMap T P) (id : ℕ) (profile : Profile) : SessionMap T P :=
  { m.setAll id (some profile) [] [] with ids := m.ids ++ [id] }

/-- The map without the session. -/
def remove (m : SessionMap T P) (id : ℕ) : SessionMap T P :=
  { m.setAll id none [] [] with ids := m.ids.filter (· != id) }

variable (m : SessionMap T P) (id : ℕ)

@[simp] lemma setProfile_ids (f : Profile → Profile) : (m.setProfile id f).ids = m.ids := rfl
@[simp] lemma setProfile_rx (f : Profile → Profile) : (m.setProfile id f).rx = m.rx := rfl
@[simp] lemma setProfile_tx (f : Profile → Profile) : (m.setProfile id f).tx = m.tx := rfl
lemma setProfile_profile (f : Profile → Profile) (s : ℕ) :
    (m.setProfile id f).profile s = if s = id then (m.profile s).map f else m.profile s := by
  by_cases h : s = id
  · simp [setProfile,h]
  · simp [setProfile,h]

@[simp] lemma setRx_ids (rx : List (Packet T P)) : (m.setRx id rx).ids = m.ids := rfl
@[simp] lemma setRx_profile (rx : List (Packet T P)) : (m.setRx id rx).profile = m.profile := rfl
@[simp] lemma setRx_tx (rx : List (Packet T P)) : (m.setRx id rx).tx = m.tx := rfl
lemma setRx_rx (rx : List (Packet T P)) (s : ℕ) :
    (m.setRx id rx).rx s = if s = id then rx else m.rx s := by
  by_cases h : s = id
  · simp [setRx,h]
  · simp [setRx,h]

@[simp] lemma setRx_self : m.setRx id (m.rx id) = m := by simp [setRx]

@[simp] lemma setTx_ids (tx : List (Packet T P)) : (m.setTx id tx).ids = m.ids := rfl
@[simp] lemma setTx_profile (tx : List (Packet T P)) : (m.setTx id tx).profile = m.profile := rfl
@[simp] lemma setTx_rx (tx : List (Packet T P)) : (m.setTx id tx).rx = m.rx := rfl
lemma setTx_tx (tx : List (Packet T P)) (s : ℕ) :
    (m.setTx id tx).tx s = if s = id then tx else m.tx s := by
  by_cases h : s = id
  · simp [setTx,h]
  · simp [setTx,h]

@[simp] lemma setTx_self : m.setTx id (m.tx id) = m := by simp [setTx]
@[simp] lemma setTx_setTx (tx tx' : List (Packet T P)) :
    (m.setTx id tx).setTx id tx' = m.setTx id tx' := by simp [setTx]

@[simp] lemma send_ids (packet : Packet T P) : (m.send id packet).ids = m.ids := rfl
@[simp] lemma send_profile (packet : Packet T P) : (m.send id packet).profile = m.profile := rfl
@[simp] lemma send_rx (packet : Packet T P) : (m.send id packet).rx = m.rx := rfl
lemma send_tx (packet : Packet T P) (s : ℕ) :
    (m.send id packet).tx s = m.tx s ++ if s = id then [packet] else [] := by
  rw [send,setTx_tx]
  split_ifs with h
  · rw [h]
  · rw [List.append_nil]

@[simp] lemma add_ids (profile : Profile) : (m.add id profile).ids = m.ids ++ [id] := rfl
@[simp] lemma remove_ids : (m.remove id).ids = m.ids.filter (· != id) := rfl

lemma add_tx (profile : Profile) (s : ℕ) :
    (m.add id profile).tx s = if s = id then [] else m.tx s := by
  by_cases h : s = id
  · simp [add,setAll,h]
  · simp [add,setAll,h]

lemma add_rx (profile : Profile) (s : ℕ) :
    (m.add id profile).rx s = if s = id then [] else m.rx s := by
  by_cases h : s = id
  · simp [add,setAll,h]
  · simp [add,setAll,h]

lemma add_profile (profile : Profile) (s : ℕ) :
    (m.add id profile).profile s = if s = id then some profile else m.profile s := by
  by_cases h : s = id
  · simp [add,setAll,h]
  · simp [add,setAll,h]

lemma remove_tx (s : ℕ) : (m.remove id).tx s = if s = id then [] else m.tx s := by
  by_cases h : s = id
  · simp [remove,setAll,h]
  · simp [remove,setAll,h]

lemma remove_rx (s : ℕ) : (m.remove id).rx s = if s = id then [] else m.rx s := by
  by_cases h : s = id
  · simp [remove,setAll,h]
  · simp [remove,setAll,h]

lemma remove_profile (s : ℕ) : (m.remove id).profile s = if s = id then none else m.profile s := by
  by_cases h : s = id
  · simp [remove,setAll,h]
  · simp [remove,setAll,h]

end SessionMap

namespace SessionRegistry

/-- The map that a registry stands for. -/
def toMap (registry : SessionRegistry T P Q S) : SessionMap T P where
  ids := registry.ids
  profile id := (registry.findSession id).map Session.profile
  rx id := ((registry.findSession id).map Session.rx).getD []
  tx id := ((registry.findSession id).map Session.tx).getD []

/-- The registry is well formed and stands for the map. -/
structure Shows (registry : SessionRegistry T P Q S) (m : SessionMap T P) : Prop where
  wellFormed : registry.WellFormed
  toMap_eq : registry.toMap = m

lemma WellFormed.shows {registry : SessionRegistry T P Q S} (h : registry.WellFormed) :
    registry.Shows registry.toMap := ⟨h,rfl⟩

lemma shows_new : (new : SessionRegistry T P Q S).Shows .empty := ⟨wellFormed_new,rfl⟩

section Shows

variable {registry : SessionRegistry T P Q S} {m : SessionMap T P} {id : ℕ}

lemma Shows.ids_eq (h : registry.Shows m) : m.ids = registry.ids := by rw [← h.toMap_eq]; rfl

lemma Shows.nodup (h : registry.Shows m) : m.ids.Nodup := by
  rw [h.ids_eq]
  exact h.wellFormed.distinct

/-- As many sessions as slots are in use. -/
lemma Shows.length_eq (h : registry.Shows m) : m.ids.length = registry.sessions.length := by
  rw [h.ids_eq,ids,List.length_map,← HeaplessVec.asSlice_length,h.wellFormed.present,
    List.length_map]

/-- At most as many sessions as the table holds. -/
lemma Shows.length_le (h : registry.Shows m) : m.ids.length ≤ S := by
  rw [h.length_eq]
  exact registry.sessions.length_le

/-- At most as many sessions as a length counts. -/
lemma Shows.length_lt (h : registry.Shows m) : m.ids.length < 65536 := by
  rw [h.length_eq]
  exact registry.sessions.length_lt

/-- A queue holds at most `Q` packets. -/
lemma Shows.rx_length_le (h : registry.Shows m) (id : ℕ) : (m.rx id).length ≤ Q := by
  rw [← h.toMap_eq]
  change (((registry.findSession id).map Session.rx).getD []).length ≤ Q
  cases registry.findSession id with
  | none => exact Nat.zero_le Q
  | some session =>
    refine (List.reduceOption_length_le _).trans ?_
    rw [HeaplessVec.asSlice_length]
    exact session.rxQueue.length_le

lemma Shows.tx_length_le (h : registry.Shows m) (id : ℕ) :
    (m.tx id).length ≤ Q ∧ (m.tx id).length < 65536 := by
  rw [← h.toMap_eq]
  change (((registry.findSession id).map Session.tx).getD []).length ≤ Q ∧
    (((registry.findSession id).map Session.tx).getD []).length < 65536
  cases registry.findSession id with
  | none => exact ⟨Nat.zero_le Q,Nat.zero_lt_succ _⟩
  | some session =>
    have hle : session.tx.length ≤ session.txQueue.length := by
      rw [← HeaplessVec.asSlice_length]
      exact List.reduceOption_length_le _
    exact ⟨hle.trans session.txQueue.length_le,hle.trans_lt session.txQueue.length_lt⟩

/-- The registered session behind an id. -/
lemma Shows.find (h : registry.Shows m) (hid : id ∈ m.ids) :
    ∃ session, registry.findSession id = some session ∧ session.sessionId = id ∧ session.Filled ∧
      m.profile id = some session.profile ∧ m.rx id = session.rx ∧ m.tx id = session.tx := by
  rw [h.ids_eq] at hid
  obtain ⟨session,hs⟩ := exists_findSession.mpr hid
  refine ⟨session,hs,findSession_id hs,h.wellFormed.filled session (mem_all_of_findSession hs),?_⟩
  rw [← h.toMap_eq]
  simp [toMap,hs]

lemma Shows.find_none (h : registry.Shows m) (hid : id ∉ m.ids) :
    registry.findSession id = none ∧ m.profile id = none ∧ m.rx id = [] ∧ m.tx id = [] := by
  rw [h.ids_eq] at hid
  have hs := findSession_eq_none.mpr hid
  refine ⟨hs,?_⟩
  rw [← h.toMap_eq]
  simp [toMap,hs]

/-- A registry that differs in what is found under one id stands for a map that differs there. -/
lemma toMap_of_find {registry' : SessionRegistry T P Q S} {slot : Option (Session T P Q)}
    (hfind : ∀ s, registry'.findSession s = if s = id then slot else registry.findSession s) :
    registry'.toMap = { registry.toMap.setAll id (slot.map Session.profile)
      ((slot.map Session.rx).getD []) ((slot.map Session.tx).getD []) with ids := registry'.ids } := by
  have hupdate {α : Type} (f : Option (Session T P Q) → α) :
      (fun s => f (registry'.findSession s)) =
        Function.update (fun s => f (registry.findSession s)) id (f slot) := by
    funext s
    rw [Function.update_apply,hfind,apply_ite f]
  exact SessionMap.ext rfl (hupdate (fun found => found.map Session.profile))
    (hupdate (fun found => (found.map Session.rx).getD []))
    (hupdate (fun found => (found.map Session.tx).getD []))

lemma Shows.replaces {registry' : SessionRegistry T P Q S} {session : Session T P Q}
    (h : registry.Shows m) (hr : registry.Replaces session registry') (hf : session.Filled) :
    registry'.Shows (m.setAll session.sessionId (some session.profile) session.rx session.tx) := by
  refine ⟨hr.wellFormed h.wellFormed hf,?_⟩
  rw [toMap_of_find hr.find,hr.ids,← h.toMap_eq]
  rfl

/-- Changing the metadata of a registered session. -/
lemma withSession_profile {f : Session T P Q → Session T P Q} {g : Profile → Profile}
    (hid : ∀ s, (f s).sessionId = s.sessionId) (hrx : ∀ s, (f s).rxQueue = s.rxQueue)
    (htx : ∀ s, (f s).txQueue = s.txQueue) (hg : ∀ s, (f s).profile = g s.profile)
    (h : registry.Shows m) (hmem : id ∈ m.ids) :
    ∃ registry', withSession id (Proc.modify f) registry = .ok () registry' ∧
      registry'.Shows (m.setProfile id g) := by
  obtain ⟨session,hfind,hs,hfilled,hp,hr,ht⟩ := h.find hmem
  obtain ⟨hn,-⟩ | ⟨session',registry',hfind',hrep,hok⟩ := withSession_modify hid id registry
  · rw [hfind] at hn
    cases hn
  · rw [hfind] at hfind'
    cases hfind'
    have hrx' : (f session).rx = session.rx := by rw [Session.rx,hrx]; rfl
    have htx' : (f session).tx = session.tx := by rw [Session.tx,htx]; rfl
    have hf : (f session).Filled := ⟨by rw [hrx,hrx']; exact hfilled.rx,by rw [htx,htx']; exact hfilled.tx⟩
    refine ⟨registry',hok,?_⟩
    have hshow := h.replaces hrep hf
    rw [hid,hs,hrx',htx',hg,← hr,← ht] at hshow
    simpa [SessionMap.setAll,SessionMap.setProfile,hp] using hshow

/-- A keyed operation on an id that is not registered. -/
lemma withSession_missing {α : Type} (h : registry.Shows m) (hmem : id ∉ m.ids)
    (body : Proc (Session T P Q) BrokerError α) :
    withSession id body registry = .err (.sessionNotFound id) registry := by
  obtain ⟨-,hs⟩ | ⟨session,put,hfind,-⟩ := withSession_cases id body registry
  · exact hs
  · rw [(h.find_none hmem).1] at hfind
    cases hfind

/-- A session whose two queues are replaced by filled ones. -/
lemma Shows.queues {registry' : SessionRegistry T P Q S} {session : Session T P Q}
    {rxQueue txQueue : HeaplessVec (Option (Packet T P)) Q} {rx tx : List (Packet T P)}
    (h : registry.Shows m) (hid : session.sessionId = id) (hp : m.profile id = some session.profile)
    (hrx : rxQueue.asSlice = rx.map some) (htx : txQueue.asSlice = tx.map some)
    (hr : registry.Replaces { session with rxQueue, txQueue } registry') :
    registry'.Shows ((m.setRx id rx).setTx id tx) := by
  have hrx' : ({ session with rxQueue, txQueue } : Session T P Q).rx = rx := Session.rx_eq hrx
  have htx' : ({ session with rxQueue, txQueue } : Session T P Q).tx = tx := Session.tx_eq htx
  have hshow := h.replaces hr (Session.filled_of_eq hrx htx)
  rw [hrx',htx'] at hshow
  have hprofile : Function.update m.profile id (some session.profile) = m.profile := by
    rw [← hp,Function.update_eq_self]
  have hmap : m.setAll id (some session.profile) rx tx = (m.setRx id rx).setTx id tx := by
    rw [SessionMap.setAll,hprofile]
    rfl
  rw [← hmap,← hid]
  exact hshow

/-- Appending to a queue that holds packets only. -/
lemma Enqueues.filled {queue : Session T P Q → HeaplessVec (Option (Packet T P)) Q}
    {put : HeaplessVec (Option (Packet T P)) Q → Session T P Q → Session T P Q}
    {packet : Packet T P} {session : Session T P Q} {items : List (Packet T P)}
    {o : Outcome (SessionRegistry T P Q S) BrokerError Unit}
    (h : Enqueues queue put id packet registry o) (hfind : registry.findSession id = some session)
    (hqueue : (queue session).asSlice = items.map some) :
    (Q ≤ items.length ∧ o = .err (.sessionQueueFull id Q) registry) ∨
    (items.length = 65535 ∧ 65535 < Q ∧ o = .abort .panic) ∨
    ∃ filled registry', items.length < Q ∧ items.length < 65535 ∧
      filled.asSlice = (items ++ [packet]).map some ∧
      registry.Replaces (put filled session) registry' ∧ o = .ok () registry' := by
  have hlen : (queue session).length = items.length := by
    rw [← HeaplessVec.asSlice_length,hqueue,List.length_map]
  cases h with
  | missing absent =>
    rw [absent] at hfind
    cases hfind
  | full find full =>
    rw [hfind] at find
    cases find
    exact .inl ⟨hlen ▸ full,rfl⟩
  | overflow find length capacity =>
    rw [hfind] at find
    cases find
    exact .inr (.inl ⟨hlen ▸ length,capacity,rfl⟩)
  | @queued _ filled registry' find room items_eq replaces =>
    rw [hfind] at find
    cases find
    have hitems : filled.asSlice = (items ++ [packet]).map some := by
      rw [items_eq,hqueue,List.map_append]
      rfl
    exact .inr (.inr ⟨filled,registry',hlen ▸ room.1,hlen ▸ room.2,hitems,replaces,rfl⟩)

/-- What sending a packet to a registered session can do. -/
inductive Sends (registry : SessionRegistry T P Q S) (m : SessionMap T P) (id : ℕ)
    (packet : Packet T P) : Outcome (SessionRegistry T P Q S) BrokerError Unit → Prop
  | full (full : Q ≤ (m.tx id).length) :
      Sends registry m id packet (.err (.sessionQueueFull id Q) registry)
  | overflow (length : (m.tx id).length = 65535) (capacity : 65535 < Q) :
      Sends registry m id packet (.abort .panic)
  | sent {registry'} (room : (m.tx id).length < Q) (length : (m.tx id).length < 65535)
      (shows : registry'.Shows (m.send id packet)) : Sends registry m id packet (.ok () registry')

lemma queueTxPacket_sends (h : registry.Shows m) (hmem : id ∈ m.ids) (packet : Packet T P) :
    Sends registry m id packet (queueTxPacket id packet registry) := by
  obtain ⟨session,hfind,hid,hfilled,hp,hr,ht⟩ := h.find hmem
  have hqueue : session.txQueue.asSlice = (m.tx id).map some := by
    rw [ht]
    exact hfilled.tx
  obtain ⟨hfull,ho⟩ | ⟨hlength,hQ,ho⟩ | ⟨filled,registry',hQ,hlength,hitems,hreplaces,ho⟩ :=
    (queueTxPacket_spec id packet registry).filled hfind hqueue
  · rw [ho]
    exact .full hfull
  · rw [ho]
    exact .overflow hlength hQ
  · rw [ho]
    refine .sent hQ hlength ?_
    have hshow := h.queues hid hp hfilled.rx hitems hreplaces
    rwa [← hr,SessionMap.setRx_self] at hshow

/-- What queueing a packet received from a registered session can do. -/
inductive Receives (registry : SessionRegistry T P Q S) (m : SessionMap T P) (id : ℕ)
    (packet : Packet T P) : Outcome (SessionRegistry T P Q S) BrokerError Unit → Prop
  | full (full : Q ≤ (m.rx id).length) :
      Receives registry m id packet (.err (.sessionQueueFull id Q) registry)
  | overflow (length : (m.rx id).length = 65535) (capacity : 65535 < Q) :
      Receives registry m id packet (.abort .panic)
  | received {registry'} (room : (m.rx id).length < Q) (length : (m.rx id).length < 65535)
      (shows : registry'.Shows (m.setRx id (m.rx id ++ [packet]))) :
      Receives registry m id packet (.ok () registry')

lemma queueRxPacket_receives (h : registry.Shows m) (hmem : id ∈ m.ids) (packet : Packet T P) :
    Receives registry m id packet (queueRxPacket id packet registry) := by
  obtain ⟨session,hfind,hid,hfilled,hp,hr,ht⟩ := h.find hmem
  have hqueue : session.rxQueue.asSlice = (m.rx id).map some := by
    rw [hr]
    exact hfilled.rx
  obtain ⟨hfull,ho⟩ | ⟨hlength,hQ,ho⟩ | ⟨filled,registry',hQ,hlength,hitems,hreplaces,ho⟩ :=
    (queueRxPacket_spec id packet registry).filled hfind hqueue
  · rw [ho]
    exact .full hfull
  · rw [ho]
    exact .overflow hlength hQ
  · rw [ho]
    refine .received hQ hlength ?_
    have hshow := h.queues hid hp hitems hfilled.tx hreplaces
    rwa [← ht,← SessionMap.setRx_tx m id (m.rx id ++ [packet]),SessionMap.setTx_self] at hshow

/-- Taking the front packet of a queue that holds packets only. -/
lemma dequeueFront_filled {queue : HeaplessVec (Option (Packet T P)) Q} {items : List (Packet T P)}
    (h : queue.asSlice = items.map some) : queue.dequeueFront.1.join = items.head? ∧
      queue.dequeueFront.2.asSlice = items.tail.map some := by
  rw [HeaplessVec.dequeueFront_fst,HeaplessVec.asSlice_dequeueFront,h]
  cases items with
  | nil => exact ⟨rfl,rfl⟩
  | cons item items => exact ⟨rfl,rfl⟩

lemma dequeueRxPacket_shows (h : registry.Shows m) (hmem : id ∈ m.ids) :
    ∃ registry', dequeueRxPacket id registry = .ok (m.rx id).head? registry' ∧
      registry'.Shows (m.setRx id (m.rx id).tail) := by
  obtain ⟨session,hfind,hid,hfilled,hp,hr,ht⟩ := h.find hmem
  obtain ⟨hn,-⟩ | ⟨session',registry',hfind',hrep,hok⟩ := dequeueRxPacket_cases id registry
  · rw [hfind] at hn
    cases hn
  · rw [hfind] at hfind'
    cases hfind'
    obtain ⟨hhead,htail⟩ := dequeueFront_filled hfilled.rx
    rw [hhead,← hr] at hok
    refine ⟨registry',hok,?_⟩
    have hshow := h.queues hid hp htail hfilled.tx hrep
    rwa [← hr,← ht,← SessionMap.setRx_tx m id (m.rx id).tail,SessionMap.setTx_self] at hshow

/-- Nothing is written when the queue is empty. -/
lemma dequeueRxPacket_empty (h : registry.Shows m) (hmem : id ∈ m.ids) (hrx : m.rx id = []) :
    dequeueRxPacket id registry = .ok none registry := by
  obtain ⟨session,hfind,-,hfilled,-,hr,-⟩ := h.find hmem
  obtain ⟨hn,-⟩ | ⟨session',put,hfind',hsame,-,hs⟩ :=
    withSession_cases id Session.dequeueRxPacket registry
  · rw [hfind] at hn
    cases hn
  · rw [hfind] at hfind'
    cases hfind'
    have hlen : ¬ 0 < session.rxQueue.length := by
      rw [← HeaplessVec.asSlice_length,hfilled.rx,← hr,hrx]
      exact Nat.lt_irrefl 0
    have hbody : Session.dequeueRxPacket session = .ok none session := by
      simp only [Session.dequeueRxPacket,HeaplessVec.dequeueFront,dif_neg hlen]
      rfl
    rw [dequeueRxPacket,hs,hbody,Outcome.mapState_ok,hsame]

lemma dequeueTxPacket_shows (h : registry.Shows m) (hmem : id ∈ m.ids) :
    ∃ registry', dequeueTxPacket id registry = .ok (m.tx id).head? registry' ∧
      registry'.Shows (m.setTx id (m.tx id).tail) := by
  obtain ⟨session,hfind,hid,hfilled,hp,hr,ht⟩ := h.find hmem
  obtain ⟨hn,-⟩ | ⟨session',registry',hfind',hrep,hok⟩ := dequeueTxPacket_cases id registry
  · rw [hfind] at hn
    cases hn
  · rw [hfind] at hfind'
    cases hfind'
    obtain ⟨hhead,htail⟩ := dequeueFront_filled hfilled.tx
    rw [hhead,← ht] at hok
    refine ⟨registry',hok,?_⟩
    have hshow := h.queues hid hp hfilled.rx htail hrep
    rwa [← hr,← ht,SessionMap.setRx_self] at hshow

/-- What registering a session does to the map. -/
inductive Joins (registry : SessionRegistry T P Q S) (m : SessionMap T P) (id : ℕ)
    (keepAliveSecs : UInt16) (currentTime : ℕ) :
    Outcome (SessionRegistry T P Q S) BrokerError Unit → Prop
  | full (full : S ≤ m.ids.length) :
      Joins registry m id keepAliveSecs currentTime (.err (.maxSessionsReached m.ids.length S) registry)
  | exists (mem : id ∈ m.ids) :
      Joins registry m id keepAliveSecs currentTime (.err (.sessionAlreadyExists id) registry)
  | overflow (length : m.ids.length = 65535) (capacity : 65535 < S) :
      Joins registry m id keepAliveSecs currentTime (.abort .panic)
  | joined {registry'} (fresh : id ∉ m.ids)
      (shows : registry'.Shows (m.add id ⟨none,keepAliveSecs,.connecting,currentTime⟩)) :
      Joins registry m id keepAliveSecs currentTime (.ok () registry')

lemma registerNewSession_joins (h : registry.Shows m) (id : ℕ) (keepAliveSecs : UInt16)
    (currentTime : ℕ) : Joins registry m id keepAliveSecs currentTime
      (registerNewSession id keepAliveSecs currentTime registry) := by
  have hlen := h.length_eq.symm
  have hs := registerNewSession_spec id keepAliveSecs currentTime registry
  generalize registerNewSession id keepAliveSecs currentTime registry = o at hs ⊢
  cases hs with
  | full full =>
    rw [hlen] at full ⊢
    exact .full full
  | «exists» mem => exact .exists (h.ids_eq ▸ mem)
  | overflow length capacity => exact .overflow (hlen ▸ length) capacity
  | @registered registry' fresh all_eq wellFormed =>
    have hfind : ∀ s, registry'.findSession s = if s = id then
        some (Session.new id keepAliveSecs currentTime) else registry.findSession s := by
      intro s
      have hsingle : [Session.new (T := T) (P := P) (Q := Q) id keepAliveSecs currentTime].find?
          (·.sessionId == s) = if s = id then some (Session.new id keepAliveSecs currentTime)
            else none := by
        rw [List.find?_singleton]
        by_cases hid : s = id
        · simp [Session.new,hid]
        · simp [Session.new,hid,Ne.symm hid]
      rw [findSession_eq,all_eq,List.find?_append,← findSession_eq,hsingle]
      split_ifs with hid
      · rw [hid,findSession_eq_none.mpr fresh]
        rfl
      · cases registry.findSession s <;> rfl
    refine .joined (h.ids_eq ▸ fresh) ⟨wellFormed h.wellFormed,?_⟩
    rw [toMap_of_find hfind,ids,all_eq,List.map_append,← h.toMap_eq]
    rfl

lemma removeSession_shows (h : registry.Shows m) (id : ℕ) :
    (registry.removeSession id).2.Shows (m.remove id) := by
  obtain ⟨hall,hw⟩ := all_removeSession h.wellFormed id
  have hfind : ∀ s, (registry.removeSession id).2.findSession s =
      if s = id then none else registry.findSession s := by
    intro s
    rw [findSession_eq,findSession_eq,hall,List.find?_filter]
    split_ifs with hs
    · rw [List.find?_eq_none]
      intro x _
      simp [hs]
    · congr 1
      funext x
      by_cases hx : x.sessionId = s
      · simp [hx,hs]
      · simp [hx]
  refine ⟨hw,?_⟩
  rw [toMap_of_find hfind,ids,hall,← h.toMap_eq]
  simp only [SessionMap.remove,toMap,ids,List.filter_map]
  rfl

/-- Removing reports whether the id was registered. -/
lemma removeSession_fst (h : registry.Shows m) (id : ℕ) :
    (registry.removeSession id).1 = decide (id ∈ m.ids) := by
  rw [removeSession,HeaplessVec.removeFirst_fst,h.wellFormed.present,List.any_map,h.ids_eq]
  apply Bool.eq_iff_iff.mpr
  rw [List.any_eq_true,decide_eq_true_iff,ids,List.mem_map]
  simp

end Shows

end SessionRegistry

end Picobroker
