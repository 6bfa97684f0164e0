import Picobroker.Broker.Invariant
import Picobroker.Session.Refinement

/-! The listing of the sessions with packets to send, and the draining of a queue to its client. -/
namespace Picobroker
open Rust

variable {T P Q S M B : ℕ}

namespace PicoBroker

variable {broker : PicoBroker T P Q S M B} {m : SessionMap T P} {s : ℕ}

/-- While there is room, the discarded results of the pushes are all `Ok`. -/
lemma forEach_push_if (p : ℕ → Bool) (xs : List ℕ) (v : HeaplessVec ℕ S)
    (hS : v.length+xs.length ≤ S) (hlt : v.length+xs.length ≤ 65535) :
    ∃ w, Proc.forEach (fun x => if p x then Proc.discard (HeaplessVec.push x) else pure ()) xs v =
        (.ok () w : Outcome (HeaplessVec ℕ S) BrokerError Unit) ∧
      w.asSlice = v.asSlice ++ xs.filter p := by
  induction xs generalizing v with
  | nil => exact ⟨v,rfl,(List.append_nil _).symm⟩
  | cons x xs ih =>
    rw [List.length_cons] at hS hlt
    rw [Proc.forEach_cons,List.filter_cons]
    by_cases hx : p x = true
    · obtain ⟨hfull,-⟩ | ⟨-,hl,-⟩ | ⟨-,-,v',hp,hv'⟩ := HeaplessVec.push_cases v x
      · omega
      · omega
      have hlen : v'.length = v.length+1 := by
        rw [← v'.asSlice_length,hv',List.length_append,v.asSlice_length,List.length_singleton]
      obtain ⟨w,hw,hslice⟩ := ih v' (by omega) (by omega)
      refine ⟨w,?_,?_⟩
      · simp only [hx,if_true,Proc.discard,hp]
        exact hw
      · rw [hslice,hv',if_pos hx,List.append_assoc,List.singleton_append]
    · obtain ⟨w,hw,hslice⟩ := ih v (by omega) (by omega)
      refine ⟨w,?_,?_⟩
      · simp only [hx]
        exact hw
      · rw [hslice,if_neg hx]

/-- The listing has a place for every session, so that no push is lost. -/
lemma Consistent.getSessionsWithPendingPackets (h : broker.Consistent m) :
    ∃ pending, broker.getSessionsWithPendingPackets = .ok () pending ∧
      pending.asSlice = m.ids.filter (fun id => !(m.tx id).isEmpty) := by
  have hle := h.shows.length_le
  have hlt := h.shows.length_lt
  obtain ⟨w,hw,hslice⟩ := forEach_push_if (S := S) broker.sessions.hasPendingTxPackets m.ids .new
    (by simpa using hle) (by simp; omega)
  refine ⟨w,?_,?_⟩
  · rw [PicoBroker.getSessionsWithPendingPackets,h.getAllSessions_eq]
    exact hw
  · rw [hslice,HeaplessVec.asSlice_new,List.nil_append]
    exact List.filter_congr (fun id _ => h.shows.hasPendingTxPackets_eq id)

/-- `n` calls of `dequeue_packet_to_send_to_client`, and what they return. -/
def dequeueTimes (sessionId : ℕ) :
    ℕ → Proc (PicoBroker T P Q S M B) BrokerError (List (Option (Packet T P)))
  | 0 => pure []
  | n+1 => do
    let packet ← dequeuePacketToSendToClient sessionId
    let packets ← dequeueTimes sessionId n
    pure (packet::packets)

/-- The calls take one packet each off the front, and none when the queue is empty. -/
lemma Consistent.dequeueTimes (n : ℕ) (h : broker.Consistent m) (hs : s ∈ m.ids) :
    ∃ broker', dequeueTimes s n broker = .ok ((List.range n).map (fun i => (m.tx s)[i]?)) broker' ∧
      broker'.Consistent (m.setTx s ((m.tx s).drop n)) := by
  induction n generalizing broker m with
  | zero => exact ⟨broker,rfl,by rwa [List.drop_zero,SessionMap.setTx_self]⟩
  | succ n ih =>
    obtain ⟨hn,-⟩ | ⟨-,b₁,hd,-,hc₁⟩ := h.dequeuePacketToSendToClient s
    · exact absurd hs hn
    obtain ⟨b₂,hb₂,hc₂⟩ := ih hc₁ hs
    have htx : (m.setTx s (m.tx s).tail).tx s = (m.tx s).tail := by
      rw [SessionMap.setTx_tx,if_pos rfl]
    rw [htx] at hb₂ hc₂
    refine ⟨b₂,?_,?_⟩
    · rw [PicoBroker.dequeueTimes,Proc.bind_apply,hd,Outcome.andThen_ok,Proc.bind_apply,hb₂,
        Outcome.andThen_ok,Proc.pure_apply,List.range_succ_eq_map,List.map_cons,List.map_map,
        List.head?_eq_getElem?]
      simp only [List.getElem?_tail]
      rfl
    · rwa [SessionMap.setTx_setTx,List.drop_tail] at hc₂

/-- The session gets a packet out of the next call. -/
def CanDequeue (broker : PicoBroker T P Q S M B) (sessionId : ℕ) : Prop :=
  ∃ packet broker', dequeuePacketToSendToClient sessionId broker = .ok (some packet) broker'

lemma Consistent.canDequeue_iff (h : broker.Consistent m) (s : ℕ) :
    broker.CanDequeue s ↔ s ∈ m.ids ∧ m.tx s ≠ [] := by
  obtain ⟨hs,hd⟩ | ⟨hs,b',hd,-⟩ := h.dequeuePacketToSendToClient s
  · constructor
    · rintro ⟨packet,b',hok⟩
      rw [hd] at hok
      cases hok
    · intro hmem
      exact absurd hmem.1 hs
  · rw [CanDequeue,hd]
    cases m.tx s with
    | nil => simp
    | cons packet packets => simp [hs]

/-- Repeated dequeuing returns the packets that the queue of the session holds, in order, and
`Ok(None)` only behind the last one. Every slot of the queue holds a packet. -/
def DrainsInOrder (broker : PicoBroker T P Q S M B) (session : Session T P Q) : Prop :=
  session.txQueue.asSlice = session.tx.map some ∧ ∀ n, ∃ broker' session',
    dequeueTimes session.sessionId n broker =
      .ok ((List.range n).map (fun i => session.tx[i]?)) broker' ∧
    broker'.sessions.findSession session.sessionId = some session' ∧
    session'.txQueue.asSlice = session.txQueue.asSlice.drop n

lemma Consistent.drainsInOrder (h : broker.Consistent m) {session : Session T P Q}
    (hs : session ∈ broker.sessions.all) : broker.DrainsInOrder session := by
  have hfilled := h.shows.wellFormed.filled session hs
  have hmem : session.sessionId ∈ m.ids := by
    rw [h.shows.ids_eq]
    exact List.mem_map_of_mem hs
  have htx : m.tx session.sessionId = session.tx := by
    obtain ⟨session',hfind,-,-,-,-,ht⟩ := h.shows.find hmem
    rw [h.shows.wellFormed.findSession_of_mem hs] at hfind
    cases hfind
    exact ht
  refine ⟨hfilled.tx,?_⟩
  intro n
  obtain ⟨b',hd,hc⟩ := h.dequeueTimes n hmem
  obtain ⟨session',hfind,-,hfilled',-,-,ht⟩ := hc.shows.find hmem
  rw [SessionMap.setTx_tx,if_pos rfl,htx] at ht
  rw [htx] at hd
  refine ⟨b',session',hd,hfind,?_⟩
  rw [hfilled'.tx,hfilled.tx,← ht,List.map_drop]

/-- In every state that the public operations reach, the listing names a session once when its next
dequeue returns a packet and otherwise not at all, and a queue is drained completely and in order. -/
theorem pending_complete (h : Reachable next new broker) :
    ∃ pending, broker.getSessionsWithPendingPackets = .ok () pending ∧
      (∀ s, broker.CanDequeue s → pending.asSlice.count s = 1) ∧
      (∀ s, ¬ broker.CanDequeue s → s ∉ pending.asSlice) ∧
      ∀ session ∈ broker.sessions.all, broker.DrainsInOrder session := by
  have hc := consistent_of_reachable h
  obtain ⟨pending,hp,hslice⟩ := hc.getSessionsWithPendingPackets
  have hmem : ∀ s, s ∈ pending.asSlice ↔ broker.CanDequeue s := by
    intro s
    rw [hslice,List.mem_filter,hc.canDequeue_iff]
    simp
  have hnodup : pending.asSlice.Nodup := by
    rw [hslice]
    exact hc.shows.nodup.filter _
  refine ⟨pending,hp,?_,?_,?_⟩
  · intro s hs
    exact List.count_eq_one_of_mem hnodup ((hmem s).mpr hs)
  · intro s hs hmem'
    exact hs ((hmem s).mp hmem')
  · intro session hs
    exact hc.drainsInOrder hs

/-- After the processing of a SUBSCRIBE and a PINGREQ, both sessions have their answer to send. -/
theorem pending_complete_processed :
    ∃ pending, subscribeProcessed.getSessionsWithPendingPackets = .ok () pending ∧
      (∀ s, subscribeProcessed.CanDequeue s → pending.asSlice.count s = 1) ∧
      (∀ s, ¬ subscribeProcessed.CanDequeue s → s ∉ pending.asSlice) ∧
      ∀ session ∈ subscribeProcessed.sessions.all, subscribeProcessed.DrainsInOrder session :=
  pending_complete (reachable_of_exec (Option.some_get (by decide)).symm)

end PicoBroker

end Picobroker
