import Picobroker.Protocol.Packets.Buffers
import Picobroker.Server.Cleanup
import Picobroker.Server.Serving

/-! What waits in the queues of the broker can be sent: the packets were accepted by the decoder, or the
handlers made them, so that the encoder writes them into any buffer with room for the longest. -/
namespace Picobroker
open Rust

variable {T P Q S M B : ℕ} {ε : Type}

/-- The longest PUBLISH takes this many bytes, and no packet that the broker makes takes more. -/
def maxOutgoing (T P : ℕ) : ℕ := T+P+9

/-- The encoder writes the packet whole into a buffer with room for it, and reports a shorter one. What
is no PUBLISH is short. -/
structure Packet.Sendable (p : Packet T P) : Prop where
  wellFormed : p.WellFormed
  length_le : p.contents.wire.length ≤ maxOutgoing T P
  reports : ∀ n, ¬ p.UncheckedEnd n
  short : (∃ publish, p = .publish publish) ∨ p.contents.wire.length ≤ 5

lemma PublishPacket.wire_length_le (hT : T ≤ 255) (hP : P ≤ 65535) (p : PublishPacket T P) :
    p.contents.wire.length ≤ maxOutgoing T P := by
  have hl : p.contents.wire.length = _ := frame_length (PublishPacket.body_length_le hT hP p)
  have ht := p.topicName.length_le
  have hv := p.payload.length_le
  have hid : (optionPid p.packetId).length ≤ 2 := by cases p.packetId <;> simp [optionPid]
  have hlen : variableLengthLength p.contents.body.length ≤ 4 := by
    unfold variableLengthLength
    split_ifs <;> omega
  have hbody : p.contents.body.length ≤ T+P+4 := by
    simp only [contents,Contents.body,List.length_append,field_length,HeaplessString.bytes_length,
      HeaplessVec.asSlice_length]
    omega
  rw [hl,maxOutgoing]
  omega

/-- The answers of the broker are this short. -/
lemma Packet.sendable_of_body {p : Packet T P} {header : UInt8} {body : Bytes} (hwf : p.WellFormed)
    (hwire : p.contents.wire = frame header body) (hbody : body.length ≤ 3)
    (hend : ∀ n, ¬ p.UncheckedEnd n) : p.Sendable := by
  have hlen : variableLengthLength body.length = 1 := if_pos (by omega)
  have hfive : p.contents.wire.length ≤ 5 := by
    rw [hwire,frame_length (by rw [maxVariableLength]; omega),hlen]
    omega
  exact ⟨hwf,hfive.trans (by rw [maxOutgoing]; omega),hend,.inr hfive⟩

namespace PicoBroker

variable {broker broker' : PicoBroker T P Q S M B} {m : SessionMap T P} {s t : ℕ}
  {packet p : Packet T P}

lemma sendable_of_mem_response (hp : p ∈ response packet) : p.Sendable := by
  have htwo : ∀ x : UInt16, (toBeBytes x).length ≤ 3 := by
    intro x
    simp
  cases packet with
  | connect connect =>
    obtain rfl := List.mem_singleton.mp hp
    exact Packet.sendable_of_body trivial rfl (Nat.le_of_lt (by decide)) (fun _ => not_false)
  | subscribe subscribe =>
    obtain rfl := List.mem_singleton.mp hp
    exact Packet.sendable_of_body trivial rfl (by simp [SubAckPacket.body]) (fun _ => not_false)
  | publish publish =>
    rw [response_publish,Option.mem_toList] at hp
    have hack : pubAckOf publish = some p := hp
    unfold pubAckOf at hack
    split_ifs at hack
    obtain ⟨packetId,-,rfl⟩ := Option.map_eq_some_iff.mp hack
    exact Packet.sendable_of_body trivial rfl (htwo packetId) (fun _ => not_false)
  | pingReq pingReq =>
    obtain rfl := List.mem_singleton.mp hp
    exact Packet.sendable_of_body trivial rfl (Nat.zero_le 3) (fun _ => not_false)
  | _ => cases hp

lemma sendable_of_mem_output (hT : T ≤ 255) (hP : P ≤ 65535) {x : ℕ × Packet T P}
    (hx : x.2.WellFormed) (hp : p ∈ output t (broker,x)) : p.Sendable := by
  obtain hp | hp := List.mem_append.mp hp
  · obtain ⟨publish,hpublish,rfl⟩ := mem_forwarded hp
    rw [hpublish] at hx
    exact ⟨hx,publish.wire_length_le hT hP,fun _ => not_false,.inl ⟨publish,rfl⟩⟩
  · split_ifs at hp
    · exact sendable_of_mem_response hp
    · cases hp

/-- The packets that wait for their handlers are well formed, and those that wait for the clients can be
sent. -/
structure Clean (broker : PicoBroker T P Q S M B) : Prop where
  consistent : broker.Consistent broker.sessions.toMap
  received : ∀ t, ∀ p ∈ broker.rx t, p.WellFormed
  sendable : ∀ t, ∀ p ∈ broker.tx t, p.Sendable

lemma clean_new : (new : PicoBroker T P Q S M B).Clean := by
  refine ⟨consistent_new.self.1,?_,?_⟩
  · intro t p hp
    cases hp
  · intro t p hp
    cases hp

lemma Clean.of_consistent (hb : broker.Clean) (h : broker'.Consistent m)
    (hrx : ∀ t, ∀ p ∈ m.rx t, p ∈ broker.rx t ∨ p.WellFormed) (htx : ∀ t, m.tx t ⊆ broker.tx t) :
    broker'.Clean := by
  refine ⟨h.self.1,?_,?_⟩
  · intro t p hp
    rw [h.rx_eq] at hp
    obtain hp | hp := hrx t p hp
    · exact hb.received t p hp
    · exact hp
  · intro t p hp
    rw [h.tx_eq] at hp
    exact hb.sendable t p (htx t hp)

lemma Clean.rx_eq (hb : broker.Clean) (t : ℕ) : broker.sessions.toMap.rx t = broker.rx t :=
  (hb.consistent.rx_eq t).symm

lemma Clean.tx_eq (hb : broker.Clean) (t : ℕ) : broker.sessions.toMap.tx t = broker.tx t :=
  (hb.consistent.tx_eq t).symm

/-- A call that handles nothing keeps the queues clean, if it queues no other packet than a well-formed
one. -/
lemma Clean.next (hb : broker.Clean) (call : Call T P) (hn : broker.next call = some broker')
    (hproc : call ≠ .processAllSessionPackets)
    (hpacket : ∀ s p currentTime, call = .queuePacketReceivedFromClient s p currentTime → p.WellFormed) :
    broker'.Clean := by
  have hrx : ∀ t, ∀ p ∈ broker.sessions.toMap.rx t, p ∈ broker.rx t ∨ p.WellFormed := by
    intro t p hp
    exact .inl (hb.rx_eq t ▸ hp)
  have htx : ∀ t, broker.sessions.toMap.tx t ⊆ broker.tx t := fun t p hp => hb.tx_eq t ▸ hp
  obtain ⟨m,h,he⟩ := hb.consistent.effect hn hproc
  cases he with
  | refused => exact hb.of_consistent h hrx htx
  | registered =>
    refine hb.of_consistent h ?_ ?_
    · intro t p hp
      rw [SessionMap.add_rx] at hp
      split_ifs at hp
      · cases hp
      · exact hrx t p hp
    · intro t
      rw [SessionMap.add_tx]
      split_ifs
      · exact List.nil_subset _
      · exact htx t
  | disconnected | noted => exact hb.of_consistent h hrx htx
  | removed =>
    refine hb.of_consistent h ?_ ?_
    · intro t p hp
      rw [SessionMap.remove_rx] at hp
      split_ifs at hp
      · cases hp
      · exact hrx t p hp
    · intro t
      rw [SessionMap.remove_tx]
      split_ifs
      · exact List.nil_subset _
      · exact htx t
  | @received id packet currentTime _ =>
    refine hb.of_consistent h ?_ htx
    intro t p hp
    rw [SessionMap.setRx_rx] at hp
    split_ifs at hp with ht
    · obtain hp | hp := List.mem_append.mp hp
      · rw [ht]
        exact hrx id p hp
      · rw [List.mem_singleton.mp hp]
        exact .inr (hpacket _ _ _ rfl)
    · exact hrx t p hp
  | @taken id _ =>
    refine hb.of_consistent h hrx ?_
    intro t
    rw [SessionMap.setTx_tx]
    split_ifs with ht
    · rw [ht]
      exact List.Subset.trans (List.tail_subset _) (htx id)
    · exact htx t

lemma Clean.removeSessions (hb : broker.Clean) (ids : List ℕ) : (broker.removeSessions ids).Clean := by
  induction ids generalizing broker with
  | nil => exact hb
  | cons s ids ih => exact ih (hb.next (.removeSession s) rfl (by simp) (by simp))

lemma Clean.cleaned (hb : broker.Clean) (currentTime : ℕ) : (broker.cleaned currentTime).Clean :=
  (hb.removeSessions _).removeSessions _

/-- A turn of the processing keeps the queues clean. -/
lemma Clean.handleQueued (hT : T ≤ 255) (hP : P ≤ 65535) (hb : broker.Clean) {x : ℕ × Packet T P}
    (hx : x.1 ∈ broker.sessions.toMap.ids) (hwf : x.2.WellFormed) :
    (handleQueued x broker).Leaves (fun b => b.Clean ∧
      b.sessions.toMap.ids = broker.sessions.toMap.ids) := by
  have hframes := hb.consistent.handleQueued_leaves hx x.2
  intro b hs
  have hf := hframes b hs
  refine ⟨⟨hf.consistent,?_,?_⟩,hf.ids⟩
  · intro t p hp
    rw [hf.consistent.rx_eq,hf.rx,SessionMap.setRx_rx] at hp
    apply hb.received t
    rw [← hb.rx_eq]
    split_ifs at hp with ht
    · rw [ht]
      exact List.mem_of_mem_tail hp
    · exact hp
  · intro t p hp
    obtain ⟨sent,htx,hsent⟩ := hb.consistent.handleQueued_tx hx hs t
    rw [htx] at hp
    obtain hp | hp := List.mem_append.mp hp
    · exact hb.sendable t p hp
    · exact sendable_of_mem_output hT hP hwf (hsent.subset hp)

lemma Clean.processAllSessionPackets (hT : T ≤ 255) (hP : P ≤ 65535) (hb : broker.Clean) :
    (processAllSessionPackets broker).Leaves Clean := by
  rw [hb.consistent.processAllSessionPackets_eq]
  have hkeeps : Proc.Keeps (fun b : PicoBroker T P Q S M B =>
      b.Clean ∧ b.sessions.toMap.ids = broker.sessions.toMap.ids)
      (Proc.forEach PicoBroker.handleQueued broker.queued) := by
    refine Proc.keeps_forEach ?_
    rintro x hx b ⟨hclean,hids⟩
    rw [hb.consistent.queued_eq] at hx
    have hmem : x.1 ∈ b.sessions.toMap.ids := by
      rw [hids]
      exact mem_ids_of_mem_queued hx
    have hwf : x.2.WellFormed := by
      obtain ⟨t,-,hx⟩ := List.mem_flatMap.mp hx
      obtain ⟨p,hp,rfl⟩ := List.mem_map.mp hx
      exact hb.received t p (hb.rx_eq t ▸ hp)
    exact (hclean.handleQueued hT hP hmem hwf).imp (fun b' h => ⟨h.1,h.2.trans hids⟩)
  exact (hkeeps broker ⟨hb,rfl⟩).imp (fun b h => h.1)

lemma Clean.receive (hT : T ≤ 255) (hP : P ≤ 65535) (hb : broker.Clean) (hp : packet.WellFormed)
    (s currentTime : ℕ) : (receive s packet currentTime broker).Leaves Clean := by
  have hqueue : (queuePacketReceivedFromClient s packet currentTime broker).Leaves Clean := by
    intro b hs
    refine hb.next (.queuePacketReceivedFromClient s packet currentTime) hs (by simp) ?_
    rintro _ _ _ ⟨⟩
    exact hp
  exact hqueue.andThen (fun _ b _ hclean => hclean.processAllSessionPackets hT hP)

/-- Whatever the handling of a packet queues can be sent. -/
lemma Clean.queuedFor (hT : T ≤ 255) (hP : P ≤ 65535) (hb : broker.Clean) (hp : packet.WellFormed)
    (currentTime : ℕ) {q : Packet T P} (hq : q ∈ broker.queuedFor s packet currentTime t) :
    q.Sendable := by
  unfold PicoBroker.queuedFor at hq
  split at hq
  next b hs => exact (hb.receive hT hP hp s currentTime b hs).sendable t q (List.mem_of_mem_drop hq)
  next => cases hq

lemma keeps_dequeueInto (push : List (Packet T P) → Packet T P → List (Packet T P)) (s fuel : ℕ)
    (packets : List (Packet T P)) :
    Proc.Keeps Clean (dequeueInto push s fuel packets : Proc (PicoBroker T P Q S M B) ε _) := by
  induction fuel generalizing packets with
  | zero => exact fun _ _ => Outcome.leaves_abort _ _
  | succ fuel ih =>
    refine Proc.Keeps.bind ?_ ?_
    · intro b hb
      refine Proc.attempt_leaves ?_
      intro b' hs
      exact hb.next (.dequeuePacketToSendToClient s) hs (by simp) (by simp)
    · intro reply
      cases reply with
      | ok packet =>
        cases packet with
        | some packet => exact ih _
        | none => exact Proc.keeps_pure _
      | error e => exact Proc.keeps_pure _

/-- Serving a well-formed packet keeps the queues clean, whatever comes of it. -/
lemma keeps_serve (hT : T ≤ 255) (hP : P ≤ 65535) (hp : packet.WellFormed)
    (push : List (Packet T P) → Packet T P → List (Packet T P)) (s currentTime : ℕ) :
    Proc.Keeps Clean (serve push s packet currentTime : Proc (PicoBroker T P Q S M B) ε _) := by
  refine Proc.Keeps.bind (fun b hb => Proc.attempt_leaves (hb.receive hT hP hp s currentTime)) ?_
  intro reply
  cases reply with
  | ok u =>
    refine Proc.Keeps.bind (fun b hb => Outcome.leaves_ok.mpr hb) (fun b => Proc.Keeps.bind ?_ ?_)
    · intro b' hb'
      cases b.pendingSessions with
      | some pending => exact Outcome.leaves_ok.mpr hb'
      | none => exact Outcome.leaves_abort _ _
    · intro pending
      exact (keeps_dequeueInto push s (Q+1) []).bind (fun _ => Proc.keeps_pure _)
  | error e =>
    refine Proc.Keeps.bind ?_ (fun _ => Proc.keeps_pure _)
    intro b hb
    refine Proc.discard_leaves ?_
    intro b' hs
    exact hb.next (.markSessionDisconnected s) hs (by simp) (by simp)

end PicoBroker

end Picobroker
