import Picobroker.Session.Session

/-! The session registry: a bounded table of sessions, looked up by id. -/
namespace Picobroker
open Rust

variable {T P Q S : ℕ}

/-- `SessionRegistry`; the capacities of the topic registry are not used in it. -/
structure SessionRegistry (T P Q S : ℕ) where
  sessions : HeaplessVec (Option (Session T P Q)) S
  deriving DecidableEq, Repr

/-- `s.as_ref().map(|session| session.session_id == session_id).unwrap_or(false)`. -/
def hasId (sessionId : ℕ) (slot : Option (Session T P Q)) : Bool :=
  (slot.map (·.sessionId == sessionId)).getD false

/-- The session behind a slot that is not empty. -/
def onSession {α : Type} (sessionId : ℕ) (body : Proc (Session T P Q) BrokerError α) :
    Proc (Option (Session T P Q)) BrokerError α := ⟨fun slot =>
  match slot with
  | some session => (body session).mapState some
  | none => .err (.sessionNotFound sessionId) none⟩

namespace SessionRegistry

def new : SessionRegistry T P Q S := ⟨.new⟩

/-- The session that `find_session` borrows. -/
def findSession (registry : SessionRegistry T P Q S) (sessionId : ℕ) : Option (Session T P Q) :=
  (registry.sessions.asSlice.find? (hasId sessionId)).join

/-- `if let Some(session) = self.find_session(id) { body } else { Err(SessionNotFound) }`. -/
def withSession {α : Type} (sessionId : ℕ) (body : Proc (Session T P Q) BrokerError α) :
    Proc (SessionRegistry T P Q S) BrokerError α :=
  Proc.zoom sessions (fun sessions _ => ⟨sessions⟩)
    (HeaplessVec.findMut (hasId sessionId) (onSession sessionId body)
      (Proc.fail (.sessionNotFound sessionId)))

def getAllSessions (registry : SessionRegistry T P Q S) : List (Option ℕ) :=
  fillSlots (fun session => some session.sessionId) registry.sessions.asSlice.reduceOption
    (List.replicate S none) 0

def getExpiredSessions (registry : SessionRegistry T P Q S) (currentTime : ℕ) :
    List (Option ExpirationInfo) :=
  fillSlots (fun session =>
      let expirationInfo := session.expirationInfo currentTime
      if expirationInfo.isExpired then some expirationInfo else none)
    registry.sessions.asSlice.reduceOption (List.replicate S none) 0

def getDisconnectedSessions (registry : SessionRegistry T P Q S) : List (Option ℕ) :=
  fillSlots (fun session =>
      if session.state = .disconnected then some session.sessionId else none)
    registry.sessions.asSlice.reduceOption (List.replicate S none) 0

def markConnected (sessionId : ℕ) : Proc (SessionRegistry T P Q S) BrokerError Unit :=
  withSession sessionId (Proc.modify (fun session => { session with state := .connected }))

def markDisconnected (sessionId : ℕ) : Proc (SessionRegistry T P Q S) BrokerError Unit :=
  withSession sessionId (Proc.modify (fun session => { session with state := .disconnected }))

def registerNewSession (sessionId : ℕ) (keepAliveSecs : UInt16) (currentTime : ℕ) :
    Proc (SessionRegistry T P Q S) BrokerError Unit := do
  let registry ← Proc.get
  let current := registry.sessions.len
  Proc.failIf (S ≤ current) (.maxSessionsReached current S)
  Proc.failIf (registry.findSession sessionId).isSome (.sessionAlreadyExists sessionId)
  let session := Session.new sessionId keepAliveSecs currentTime
  Proc.zoom sessions (fun sessions _ => ⟨sessions⟩)
    ((HeaplessVec.push (some session)).mapErr (fun _ => .bufferFull))

def removeSession (sessionId : ℕ) (registry : SessionRegistry T P Q S) :
    Bool × SessionRegistry T P Q S :=
  let r := registry.sessions.removeFirst (hasId sessionId)
  (r.1,⟨r.2⟩)

def updateSessionActivity (sessionId currentTime : ℕ) :
    Proc (SessionRegistry T P Q S) BrokerError Unit :=
  withSession sessionId (Proc.modify (Session.updateActivity currentTime))

def updateClientId (sessionId : ℕ) (clientId : ClientId) :
    Proc (SessionRegistry T P Q S) BrokerError Unit :=
  withSession sessionId (Proc.modify (fun session => { session with clientId := some clientId }))

def updateKeepAlive (sessionId : ℕ) (keepAliveSecs : UInt16) :
    Proc (SessionRegistry T P Q S) BrokerError Unit :=
  withSession sessionId (Proc.modify (fun session => { session with keepAliveSecs }))

def queueRxPacket (sessionId : ℕ) (packet : Packet T P) :
    Proc (SessionRegistry T P Q S) BrokerError Unit :=
  withSession sessionId
    ((Session.queueRxPacket packet).mapErr (fun _ => .sessionQueueFull sessionId Q))

def queueTxPacket (sessionId : ℕ) (packet : Packet T P) :
    Proc (SessionRegistry T P Q S) BrokerError Unit :=
  withSession sessionId
    ((Session.queueTxPacket packet).mapErr (fun _ => .sessionQueueFull sessionId Q))

def dequeueRxPacket (sessionId : ℕ) :
    Proc (SessionRegistry T P Q S) BrokerError (Option (Packet T P)) :=
  withSession sessionId Session.dequeueRxPacket

def dequeueTxPacket (sessionId : ℕ) :
    Proc (SessionRegistry T P Q S) BrokerError (Option (Packet T P)) :=
  withSession sessionId Session.dequeueTxPacket

def hasPendingTxPackets (registry : SessionRegistry T P Q S) (sessionId : ℕ) : Bool :=
  ((registry.findSession sessionId).map (fun session => !session.txQueue.isEmpty)).getD false

/-- The registered sessions, oldest registration first. -/
def all (registry : SessionRegistry T P Q S) : List (Session T P Q) :=
  registry.sessions.asSlice.reduceOption

def ids (registry : SessionRegistry T P Q S) : List ℕ := registry.all.map (·.sessionId)

/-- No slot is empty, no id occurs twice and no queue holds an empty slot. -/
structure WellFormed (registry : SessionRegistry T P Q S) : Prop where
  present : registry.sessions.asSlice = registry.all.map some
  distinct : registry.ids.Nodup
  filled : ∀ session ∈ registry.all, session.Filled

lemma wellFormed_new : (new : SessionRegistry T P Q S).WellFormed :=
  ⟨rfl,List.nodup_nil,fun _ h => by cases h⟩

@[simp] lemma hasId_some (sessionId : ℕ) (session : Session T P Q) :
    hasId sessionId (some session) = (session.sessionId == sessionId) := rfl

@[simp] lemma hasId_none (sessionId : ℕ) :
    hasId sessionId (none : Option (Session T P Q)) = false := rfl

lemma findSession_eq (registry : SessionRegistry T P Q S) (sessionId : ℕ) :
    registry.findSession sessionId = registry.all.find? (·.sessionId == sessionId) := by
  rw [findSession,all]
  generalize registry.sessions.asSlice = slots
  induction slots with
  | nil => rfl
  | cons slot slots ih =>
    cases slot with
    | none => simpa [List.reduceOption_cons_of_none] using ih
    | some session =>
      rw [List.reduceOption_cons_of_some,List.find?_cons,List.find?_cons,hasId_some]
      cases session.sessionId == sessionId with
      | true => rfl
      | false => exact ih

lemma findSession_id {registry : SessionRegistry T P Q S} {sessionId : ℕ} {session : Session T P Q}
    (h : registry.findSession sessionId = some session) : session.sessionId = sessionId := by
  rw [findSession_eq] at h
  simpa using List.find?_some h

lemma mem_all_of_findSession {registry : SessionRegistry T P Q S} {sessionId : ℕ}
    {session : Session T P Q} (h : registry.findSession sessionId = some session) :
    session ∈ registry.all := by
  rw [findSession_eq] at h
  exact List.mem_of_find?_eq_some h

lemma findSession_eq_none {registry : SessionRegistry T P Q S} {sessionId : ℕ} :
    registry.findSession sessionId = none ↔ sessionId ∉ registry.ids := by
  rw [findSession_eq,List.find?_eq_none,ids,List.mem_map]
  constructor
  · intro h ⟨session,hs,hid⟩
    exact h session hs (by simpa using hid)
  · intro h session hs hid
    exact h ⟨session,hs,by simpa using hid⟩

lemma exists_findSession {registry : SessionRegistry T P Q S} {sessionId : ℕ} :
    (∃ session, registry.findSession sessionId = some session) ↔ sessionId ∈ registry.ids := by
  rw [← Option.isSome_iff_exists,Option.isSome_iff_ne_none,ne_eq,findSession_eq_none,not_not]

/-- With distinct ids, a session is found by its id. -/
lemma WellFormed.findSession_of_mem {registry : SessionRegistry T P Q S} (h : registry.WellFormed)
    {session : Session T P Q} (hs : session ∈ registry.all) :
    registry.findSession session.sessionId = some session := by
  rw [findSession_eq]
  cases hf : registry.all.find? (·.sessionId == session.sessionId) with
  | none =>
    rw [List.find?_eq_none] at hf
    exact absurd (beq_self_eq_true session.sessionId) (hf session hs)
  | some session' =>
    have hid : session'.sessionId = session.sessionId := by simpa using List.find?_some hf
    rw [List.inj_on_of_nodup_map h.distinct (List.mem_of_find?_eq_some hf) hs hid]

/-- `registry'` is `registry` with the session of the same id replaced. -/
structure Replaces (registry : SessionRegistry T P Q S) (session : Session T P Q)
    (registry' : SessionRegistry T P Q S) : Prop where
  find : ∀ id, registry'.findSession id =
    if id = session.sessionId then some session else registry.findSession id
  ids : registry'.ids = registry.ids
  wellFormed : registry.WellFormed → session.Filled → registry'.WellFormed

section Split

variable {registry registry' : SessionRegistry T P Q S} {pre post : List (Option (Session T P Q))}
  {session session' : Session T P Q} {sessionId : ℕ}

lemma all_split (h : registry.sessions.asSlice = pre ++ some session::post) :
    registry.all = pre.reduceOption ++ session::post.reduceOption := by
  rw [all,h,List.reduceOption_append,List.reduceOption_cons_of_some]

/-- The first session of the id is found. -/
lemma findSession_split (h : registry.sessions.asSlice = pre ++ some session::post)
    (hid : session.sessionId = sessionId)
    (hpre : ∀ s ∈ pre.reduceOption, s.sessionId ≠ sessionId) :
    registry.findSession sessionId = some session := by
  rw [findSession_eq,all_split h,List.find?_append,List.find?_cons_of_pos (by simpa using hid),
    List.find?_eq_none.mpr (by simpa using hpre)]
  rfl

/-- No other session is found in the place of the first one of the id. -/
lemma findSession_split_ne (h : registry.sessions.asSlice = pre ++ some session::post)
    (hne : session.sessionId ≠ sessionId) : registry.findSession sessionId =
      (pre.reduceOption ++ post.reduceOption).find? (·.sessionId == sessionId) := by
  rw [findSession_eq,all_split h,List.find?_append,List.find?_append,
    List.find?_cons_of_neg (by simpa using hne)]

/-- The slots that hold sessions are found in front of and behind a session. -/
lemma present_split (h : registry.sessions.asSlice = pre ++ some session::post)
    (hp : registry.sessions.asSlice = registry.all.map some) :
    pre = pre.reduceOption.map some ∧ post = post.reduceOption.map some := by
  rw [h,all_split h,List.map_append,List.map_cons] at hp
  have hlen := congrArg List.length hp
  have hle := List.reduceOption_length_le pre
  have hle' := List.reduceOption_length_le post
  simp only [List.length_append,List.length_cons,List.length_map] at hlen
  obtain ⟨hfront,hback⟩ := List.append_inj hp (by rw [List.length_map]; omega)
  exact ⟨hfront,(List.cons.inj hback).2⟩

/-- A session of the same id in the place of the first one. -/
lemma replaces_split (h : registry.sessions.asSlice = pre ++ some session::post)
    (h' : registry'.sessions.asSlice = pre ++ some session'::post)
    (hid : session.sessionId = sessionId) (hid' : session'.sessionId = sessionId)
    (hpre : ∀ s ∈ pre.reduceOption, s.sessionId ≠ sessionId) :
    registry.Replaces session' registry' := by
  have hids : registry'.ids = registry.ids := by
    rw [SessionRegistry.ids,SessionRegistry.ids,all_split h,all_split h']
    simp [hid,hid']
  refine ⟨?_,hids,?_⟩
  · intro id
    split_ifs with hcase
    · rw [hcase,hid']
      exact findSession_split h' hid' hpre
    · rw [findSession_split_ne h' (Ne.symm hcase),findSession_split_ne h]
      rw [hid,← hid']
      exact Ne.symm hcase
  · intro hw hfilled
    refine ⟨?_,?_,?_⟩
    · obtain ⟨hfront,hback⟩ := present_split h hw.present
      rw [all_split h',h',List.map_append,List.map_cons,← hfront,← hback]
    · rw [hids]
      exact hw.distinct
    · intro s hs
      rw [all_split h',List.mem_append,List.mem_cons] at hs
      obtain hs | hs | hs := hs
      · exact hw.filled s (by simp [all_split h,hs])
      · rw [hs]
        exact hfilled
      · exact hw.filled s (by simp [all_split h,hs])

end Split

/-- A keyed operation either finds no session of the id or runs on the first one. -/
lemma withSession_cases {α : Type} (sessionId : ℕ) (body : Proc (Session T P Q) BrokerError α)
    (registry : SessionRegistry T P Q S) :
    (registry.findSession sessionId = none ∧
      withSession sessionId body registry = .err (.sessionNotFound sessionId) registry) ∨
    ∃ session, ∃ put : Session T P Q → SessionRegistry T P Q S,
      registry.findSession sessionId = some session ∧ put session = registry ∧
      (∀ session', session'.sessionId = sessionId → registry.Replaces session' (put session')) ∧
      withSession sessionId body registry = (body session).mapState put := by
  obtain ⟨hno,hf⟩ | ⟨pre,slot,post,hv,hpre,hp,hself,hset,hf⟩ := HeaplessVec.findMut_cases
    (hasId sessionId) (onSession sessionId body) (Proc.fail (.sessionNotFound sessionId))
    registry.sessions
  · refine .inl ⟨?_,by rw [withSession,Proc.zoom_apply,hf]; rfl⟩
    have hnone : registry.sessions.asSlice.find? (hasId sessionId) = none := by
      rw [List.find?_eq_none]
      intro slot hs
      simp [hno slot hs]
    rw [findSession,hnone]
    rfl
  · cases slot with
    | none => cases hp
    | some session =>
      have hid : session.sessionId = sessionId := by simpa using hp
      have hpre' : ∀ s ∈ pre.reduceOption, s.sessionId ≠ sessionId := by
        intro s hs
        simpa using hpre _ (List.reduceOption_mem_iff.mp hs)
      refine .inr ⟨session,fun s => ⟨registry.sessions.store pre.length (some s)⟩,
        findSession_split hv hid hpre',congrArg SessionRegistry.mk hself,?_,?_⟩
      · intro s hs
        exact replaces_split hv (hset _) hid hs hpre'
      · rw [withSession,Proc.zoom_apply,hf,onSession,Outcome.mapState_mapState,
          Outcome.mapState_mapState]
        rfl

/-- What changing a field of a session can do. -/
lemma withSession_modify {f : Session T P Q → Session T P Q}
    (hf : ∀ session, (f session).sessionId = session.sessionId) (sessionId : ℕ)
    (registry : SessionRegistry T P Q S) :
    (registry.findSession sessionId = none ∧
      withSession sessionId (Proc.modify f) registry = .err (.sessionNotFound sessionId) registry) ∨
    ∃ session registry', registry.findSession sessionId = some session ∧
      registry.Replaces (f session) registry' ∧
      withSession sessionId (Proc.modify f) registry = .ok () registry' := by
  obtain ⟨hn,hs⟩ | ⟨session,put,hfind,-,hput,hs⟩ :=
    withSession_cases sessionId (Proc.modify f) registry
  · exact .inl ⟨hn,hs⟩
  · exact .inr ⟨session,put (f session),hfind,
      hput _ ((hf session).trans (findSession_id hfind)),hs⟩

/-- What appending a packet to one of the two queues can do. -/
inductive Enqueues (queue : Session T P Q → HeaplessVec (Option (Packet T P)) Q)
    (put : HeaplessVec (Option (Packet T P)) Q → Session T P Q → Session T P Q) (sessionId : ℕ)
    (packet : Packet T P) (registry : SessionRegistry T P Q S) :
    Outcome (SessionRegistry T P Q S) BrokerError Unit → Prop
  | missing (absent : registry.findSession sessionId = none) :
      Enqueues queue put sessionId packet registry (.err (.sessionNotFound sessionId) registry)
  | full {session} (find : registry.findSession sessionId = some session)
      (full : Q ≤ (queue session).length) :
      Enqueues queue put sessionId packet registry (.err (.sessionQueueFull sessionId Q) registry)
  | overflow {session} (find : registry.findSession sessionId = some session)
      (length : (queue session).length = 65535) (capacity : 65535 < Q) :
      Enqueues queue put sessionId packet registry (.abort .panic)
  | queued {session items registry'} (find : registry.findSession sessionId = some session)
      (room : (queue session).HasRoom)
      (items_eq : items.asSlice = (queue session).asSlice ++ [some packet])
      (replaces : registry.Replaces (put items session) registry') :
      Enqueues queue put sessionId packet registry (.ok () registry')

lemma enqueues_spec {queue : Session T P Q → HeaplessVec (Option (Packet T P)) Q}
    {put : HeaplessVec (Option (Packet T P)) Q → Session T P Q → Session T P Q}
    (hself : ∀ session, put (queue session) session = session)
    (hid : ∀ items session, (put items session).sessionId = session.sessionId) (sessionId : ℕ)
    (packet : Packet T P) (registry : SessionRegistry T P Q S) :
    Enqueues queue put sessionId packet registry (withSession sessionId
      ((Proc.zoom queue put ((HeaplessVec.push (some packet)).mapErr
        (fun _ => BrokerError.bufferFull))).mapErr (fun _ => .sessionQueueFull sessionId Q)) registry) := by
  obtain ⟨hn,hs⟩ | ⟨session,putSession,hfind,hsame,hput,hs⟩ := withSession_cases sessionId
    ((Proc.zoom queue put ((HeaplessVec.push (some packet)).mapErr
      (fun _ => BrokerError.bufferFull))).mapErr (fun _ => .sessionQueueFull sessionId Q)) registry
  · rw [hs]
    exact .missing hn
  · rw [hs,Proc.mapErr_apply,Proc.zoom_apply,Proc.mapErr_apply]
    obtain ⟨hQ,hp⟩ | ⟨hQ,hl,hp⟩ | ⟨hQ,hl,items,hp,hi⟩ :=
      HeaplessVec.push_cases (queue session) (some packet)
    · rw [hp,Outcome.mapErr_err,Outcome.mapState_err,Outcome.mapErr_err,Outcome.mapState_err,hself,
        hsame]
      exact .full hfind hQ
    · rw [hp]
      exact .overflow hfind hl (by omega)
    · rw [hp]
      exact .queued hfind ⟨hQ,hl⟩ hi (hput _ ((hid items session).trans (findSession_id hfind)))

lemma queueTxPacket_spec (sessionId : ℕ) (packet : Packet T P)
    (registry : SessionRegistry T P Q S) :
    Enqueues Session.txQueue (fun txQueue session => { session with txQueue }) sessionId packet
      registry (queueTxPacket sessionId packet registry) := by
  apply enqueues_spec
  · intro session
    rfl
  · intro items session
    rfl

lemma queueRxPacket_spec (sessionId : ℕ) (packet : Packet T P)
    (registry : SessionRegistry T P Q S) :
    Enqueues Session.rxQueue (fun rxQueue session => { session with rxQueue }) sessionId packet
      registry (queueRxPacket sessionId packet registry) := by
  apply enqueues_spec
  · intro session
    rfl
  · intro items session
    rfl

/-- What taking a packet off a queue can do. -/
lemma dequeues_cases (queue : Session T P Q → HeaplessVec (Option (Packet T P)) Q)
    (put : HeaplessVec (Option (Packet T P)) Q → Session T P Q → Session T P Q)
    {body : Proc (Session T P Q) BrokerError (Option (Packet T P))}
    (hbody : ∀ session, body session = .ok (queue session).dequeueFront.1.join
      (put (queue session).dequeueFront.2 session))
    (hid : ∀ items session, (put items session).sessionId = session.sessionId) (sessionId : ℕ)
    (registry : SessionRegistry T P Q S) :
    (registry.findSession sessionId = none ∧
      withSession sessionId body registry = .err (.sessionNotFound sessionId) registry) ∨
    ∃ session registry', registry.findSession sessionId = some session ∧
      registry.Replaces (put (queue session).dequeueFront.2 session) registry' ∧
      withSession sessionId body registry = .ok (queue session).dequeueFront.1.join registry' := by
  obtain ⟨hn,hs⟩ | ⟨session,putSession,hfind,-,hput,hs⟩ :=
    withSession_cases sessionId body registry
  · exact .inl ⟨hn,hs⟩
  · rw [hbody] at hs
    have hsame := (hid (queue session).dequeueFront.2 session).trans (findSession_id hfind)
    exact .inr ⟨session,_,hfind,hput _ hsame,hs⟩

lemma dequeueTxPacket_cases (sessionId : ℕ) (registry : SessionRegistry T P Q S) :
    (registry.findSession sessionId = none ∧
      dequeueTxPacket sessionId registry = .err (.sessionNotFound sessionId) registry) ∨
    ∃ session registry', registry.findSession sessionId = some session ∧
      registry.Replaces { session with txQueue := session.txQueue.dequeueFront.2 } registry' ∧
      dequeueTxPacket sessionId registry = .ok session.txQueue.dequeueFront.1.join registry' := by
  apply dequeues_cases Session.txQueue (fun txQueue session => { session with txQueue })
  · intro session
    rfl
  · intro items session
    rfl

lemma dequeueRxPacket_cases (sessionId : ℕ) (registry : SessionRegistry T P Q S) :
    (registry.findSession sessionId = none ∧
      dequeueRxPacket sessionId registry = .err (.sessionNotFound sessionId) registry) ∨
    ∃ session registry', registry.findSession sessionId = some session ∧
      registry.Replaces { session with rxQueue := session.rxQueue.dequeueFront.2 } registry' ∧
      dequeueRxPacket sessionId registry = .ok session.rxQueue.dequeueFront.1.join registry' := by
  apply dequeues_cases Session.rxQueue (fun rxQueue session => { session with rxQueue })
  · intro session
    rfl
  · intro items session
    rfl

/-- What registering a session can do. -/
inductive Registers (sessionId : ℕ) (keepAliveSecs : UInt16) (currentTime : ℕ)
    (registry : SessionRegistry T P Q S) :
    Outcome (SessionRegistry T P Q S) BrokerError Unit → Prop
  | full (full : S ≤ registry.sessions.length) :
      Registers sessionId keepAliveSecs currentTime registry
        (.err (.maxSessionsReached registry.sessions.length S) registry)
  | exists (mem : sessionId ∈ registry.ids) : Registers sessionId keepAliveSecs currentTime registry
      (.err (.sessionAlreadyExists sessionId) registry)
  | overflow (length : registry.sessions.length = 65535) (capacity : 65535 < S) :
      Registers sessionId keepAliveSecs currentTime registry (.abort .panic)
  | registered {registry' : SessionRegistry T P Q S} (fresh : sessionId ∉ registry.ids)
      (all_eq : registry'.all = registry.all ++ [Session.new sessionId keepAliveSecs currentTime])
      (wellFormed : registry.WellFormed → registry'.WellFormed) :
      Registers sessionId keepAliveSecs currentTime registry (.ok () registry')

lemma registerNewSession_spec (sessionId : ℕ) (keepAliveSecs : UInt16) (currentTime : ℕ)
    (registry : SessionRegistry T P Q S) :
    Registers sessionId keepAliveSecs currentTime registry
      (registerNewSession sessionId keepAliveSecs currentTime registry) := by
  simp only [registerNewSession,Proc.bind_apply,Proc.get_apply,Outcome.andThen_ok]
  by_cases hS : S ≤ registry.sessions.len
  · rw [Proc.failIf_pos hS]
    exact .full hS
  rw [Proc.failIf_neg hS,Outcome.andThen_ok,Proc.bind_apply]
  by_cases hid : (registry.findSession sessionId).isSome
  · rw [Proc.failIf_pos hid]
    exact .exists (exists_findSession.mp (Option.isSome_iff_exists.mp hid))
  rw [Proc.failIf_neg hid,Outcome.andThen_ok,Proc.zoom_apply,Proc.mapErr_apply]
  have hfresh : sessionId ∉ registry.ids := by
    rw [← findSession_eq_none]
    simpa using hid
  obtain ⟨hS',-⟩ | ⟨hS',hl,hp⟩ | ⟨-,-,sessions,hp,hs⟩ := HeaplessVec.push_cases registry.sessions
    (some (Session.new sessionId keepAliveSecs currentTime))
  · exact absurd hS' hS
  · rw [hp]
    exact .overflow hl (by omega)
  · rw [hp]
    have hall : (⟨sessions⟩ : SessionRegistry T P Q S).all =
        registry.all ++ [Session.new sessionId keepAliveSecs currentTime] := by
      rw [all,hs,List.reduceOption_append,List.reduceOption_singleton]
      rfl
    refine .registered hfresh hall ?_
    intro hw
    refine ⟨?_,?_,?_⟩
    · rw [hall,hs,hw.present,List.map_append]
      rfl
    · rw [ids,hall,List.map_append,List.nodup_append]
      refine ⟨hw.distinct,List.nodup_singleton _,?_⟩
      intro a ha b hb hab
      rw [List.map_singleton,List.mem_singleton] at hb
      apply hfresh
      rw [hab,hb] at ha
      exact ha
    · intro session hsession
      rw [hall,List.mem_append,List.mem_singleton] at hsession
      obtain h | h := hsession
      · exact hw.filled session h
      · rw [h]
        exact Session.filled_new _ _ _

/-- Removing keeps the other sessions in their order. -/
lemma all_removeSession {registry : SessionRegistry T P Q S} (hw : registry.WellFormed)
    (sessionId : ℕ) : (registry.removeSession sessionId).2.all =
      registry.all.filter (·.sessionId != sessionId) ∧
    (registry.removeSession sessionId).2.WellFormed := by
  have hslots : (registry.removeSession sessionId).2.sessions.asSlice =
      (registry.all.filter (·.sessionId != sessionId)).map some := by
    rw [removeSession,HeaplessVec.asSlice_removeFirst,hw.present,List.eraseP_map]
    exact congrArg _ (eraseP_eq_filter hw.distinct sessionId)
  have hall : (registry.removeSession sessionId).2.all =
      registry.all.filter (·.sessionId != sessionId) := by
    rw [all,hslots]
    simp [List.reduceOption]
  refine ⟨hall,by rw [hslots,hall],?_,?_⟩
  · rw [ids,hall]
    exact hw.distinct.sublist (List.Sublist.map _ List.filter_sublist)
  · intro session hs
    rw [hall] at hs
    exact hw.filled session (List.mem_of_mem_filter hs)

end SessionRegistry

end Picobroker
