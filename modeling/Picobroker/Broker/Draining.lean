import Picobroker.Broker.Handling

/-! `process_all_session_packets` as one loop over the packets that wait when it is called. -/
namespace Picobroker
open Rust

variable {T P Q S M B : ℕ}

namespace SessionMap

/-- The waiting packets with their sessions: session by session in the order of registration, and in
each the oldest packet first. -/
def queued (m : SessionMap T P) : List (ℕ × Packet T P) :=
  m.ids.flatMap (fun s => (m.rx s).map (s,·))

/-- The waiting packets of other sessions do not depend on the queue of this one. -/
lemma flatMap_rx_congr {rx rx' : ℕ → List (Packet T P)} {l : List ℕ} {s : ℕ} (hs : s ∉ l)
    (h : ∀ t, t ≠ s → rx' t = rx t) :
    l.flatMap (fun t => (rx' t).map (t,·)) = l.flatMap (fun t => (rx t).map (t,·)) := by
  apply List.flatMap_congr
  intro t ht
  rw [h t]
  intro he
  apply hs
  rw [← he]
  exact ht

/-- The front of the waiting packets is the front of the queue of its session. -/
lemma flatMap_rx_eq_cons {rx : ℕ → List (Packet T P)} {l : List ℕ} {x : ℕ × Packet T P}
    {rest : List (ℕ × Packet T P)} (hl : l.Nodup)
    (h : l.flatMap (fun s => (rx s).map (s,·)) = x::rest) :
    x.1 ∈ l ∧ rx x.1 = x.2::(rx x.1).tail ∧ l.flatMap (fun s =>
      (Function.update rx x.1 (rx x.1).tail s).map (s,·)) = rest := by
  induction l with
  | nil => cases h
  | cons s l ih =>
    rw [List.nodup_cons] at hl
    rw [List.flatMap_cons] at h
    cases hs : rx s with
    | nil =>
      rw [hs] at h
      obtain ⟨hmem,hx,hrest⟩ := ih hl.2 h
      have hne : s ≠ x.1 := by
        intro he
        apply hl.1
        rw [he]
        exact hmem
      refine ⟨List.mem_cons_of_mem s hmem,hx,?_⟩
      rw [List.flatMap_cons,Function.update_of_ne hne,hs,hrest]
      rfl
    | cons p ps =>
      rw [hs] at h
      obtain ⟨rfl,rfl⟩ := List.cons.inj h
      have hother : l.flatMap (fun t => (Function.update rx s (rx s).tail t).map (t,·)) =
          l.flatMap (fun t => (rx t).map (t,·)) :=
        flatMap_rx_congr hl.1 (fun t ht => Function.update_of_ne ht _ _)
      refine ⟨List.mem_cons_self,by rw [hs]; rfl,?_⟩
      rw [List.flatMap_cons,hother,Function.update_self,hs]
      rfl

/-- Taking the front packet leaves the other waiting packets. -/
lemma queued_eq_cons {m : SessionMap T P} {x : ℕ × Packet T P} {rest : List (ℕ × Packet T P)}
    (hm : m.ids.Nodup) (h : m.queued = x::rest) : x.1 ∈ m.ids ∧ m.rx x.1 = x.2::(m.rx x.1).tail ∧
      (m.setRx x.1 (m.rx x.1).tail).queued = rest :=
  flatMap_rx_eq_cons hm h

lemma queued_congr {m m' : SessionMap T P} (hids : m'.ids = m.ids) (hrx : m'.rx = m.rx) :
    m'.queued = m.queued := by
  rw [queued,queued,hids,hrx]

/-- The waiting packets of one session, in the order of its queue. -/
lemma filterMap_flatMap_rx {rx : ℕ → List (Packet T P)} {l : List ℕ} (hl : l.Nodup) (s : ℕ) :
    (l.flatMap (fun t => (rx t).map (t,·))).filterMap
      (fun x => if x.1 = s then some x.2 else none) = if s ∈ l then rx s else [] := by
  induction l with
  | nil => rfl
  | cons t l ih =>
    rw [List.nodup_cons] at hl
    rw [List.flatMap_cons,List.filterMap_append,ih hl.2,List.filterMap_map]
    by_cases hts : t = s
    · subst hts
      have hsome : (fun p : Packet T P => if (t,p).1 = t then some (t,p).2 else none) = some := by
        funext p
        exact if_pos rfl
      rw [if_neg hl.1,if_pos List.mem_cons_self,List.append_nil]
      exact (congrArg (fun f => (rx t).filterMap f) hsome).trans List.filterMap_some
    · have hnone : (rx t).filterMap ((fun x : ℕ × Packet T P =>
          if x.1 = s then some x.2 else none) ∘ fun p => (t,p)) = [] := by
        rw [List.filterMap_eq_nil_iff]
        intro p _
        exact if_neg hts
      rw [hnone,List.nil_append]
      simp [Ne.symm hts]

end SessionMap

namespace PicoBroker

/-- The waiting packets of a broker. -/
def queued (broker : PicoBroker T P Q S M B) : List (ℕ × Packet T P) :=
  broker.sessions.all.flatMap (fun session => session.rx.map (session.sessionId,·))

/-- Take the front packet of the session and handle it. -/
def handleQueued (x : ℕ × Packet T P) : Proc (PicoBroker T P Q S M B) BrokerError Unit := do
  let _ ← onSessions (SessionRegistry.dequeueRxPacket x.1)
  handlePacket x.1 x.2

/-- The packets that `process_all_session_packets` handles, each with the broker it found. -/
def handledIn (broker : PicoBroker T P Q S M B) :
    List (PicoBroker T P Q S M B × (ℕ × Packet T P)) :=
  Proc.turns handleQueued broker.queued broker

variable {broker : PicoBroker T P Q S M B} {m : SessionMap T P} {s : ℕ}

lemma Consistent.queued_eq (h : broker.Consistent m) : broker.queued = m.queued := by
  rw [queued,SessionMap.queued,h.shows.ids_eq,SessionRegistry.ids,List.flatMap_map]
  apply List.flatMap_congr
  intro session hs
  have hfind := h.shows.wellFormed.findSession_of_mem hs
  rw [← h.toMap_eq]
  simp [SessionRegistry.toMap,hfind]

/-- Taking a waiting packet, and then handling it. -/
lemma Consistent.dequeueRx (h : broker.Consistent m) (hs : s ∈ m.ids) :
    ∃ broker' : PicoBroker T P Q S M B,
      onSessions (SessionRegistry.dequeueRxPacket s) broker = .ok (m.rx s).head? broker' ∧
      broker'.topics = broker.topics ∧ broker'.Consistent (m.setRx s (m.rx s).tail) ∧
      (m.rx s = [] → broker' = broker) := by
  obtain ⟨sessions,hd,hshow⟩ := SessionRegistry.dequeueRxPacket_shows h.shows hs
  refine ⟨{ broker with sessions },?_,rfl,h.sessions hshow rfl,?_⟩
  · rw [onSessions,Proc.zoom_apply,hd]
    rfl
  · intro hrx
    rw [SessionRegistry.dequeueRxPacket_empty h.shows hs hrx,hrx] at hd
    cases hd
    rfl

/-- A turn runs the handler after the packet was taken. -/
lemma Consistent.handleQueued_run (h : broker.Consistent m) {x : ℕ × Packet T P}
    (hx : x.1 ∈ m.ids) : ∃ b : PicoBroker T P Q S M B, b.topics = broker.topics ∧
      b.Consistent (m.setRx x.1 (m.rx x.1).tail) ∧
      handleQueued x broker = handlePacket x.1 x.2 b := by
  obtain ⟨b,hd,ht,hc,-⟩ := h.dequeueRx hx
  refine ⟨b,ht,hc,?_⟩
  rw [handleQueued,Proc.bind_apply,hd,Outcome.andThen_ok]

/-- A turn takes the packet off its queue and leaves the other queues of received packets alone. -/
lemma Consistent.handleQueued_leaves (h : broker.Consistent m) (hs : s ∈ m.ids)
    (packet : Packet T P) :
    (handleQueued (s,packet) broker).Leaves (Frames (m.setRx s (m.rx s).tail)) := by
  obtain ⟨b₁,-,hc,hrun⟩ := h.handleQueued_run (x := (s,packet)) hs
  rw [hrun]
  exact hc.handlePacket_leaves hs packet

/-- Draining one session handles its waiting packets in order. -/
lemma Consistent.drainSession_eq {fuel : ℕ} (h : broker.Consistent m) (hs : s ∈ m.ids)
    (hfuel : (m.rx s).length < fuel) : drainSession fuel s broker =
      Proc.forEach handleQueued ((m.rx s).map (s,·)) broker := by
  induction fuel generalizing broker m with
  | zero => omega
  | succ fuel ih =>
    obtain ⟨b₁,hd,-,hc,hempty⟩ := h.dequeueRx hs
    rw [drainSession,Proc.bind_apply,hd,Outcome.andThen_ok]
    cases hrx : m.rx s with
    | nil =>
      rw [hempty hrx]
      rfl
    | cons packet rest =>
      rw [hrx,List.tail_cons] at hc
      rw [hrx,List.length_cons] at hfuel
      rw [List.map_cons,Proc.forEach_cons,handleQueued,Proc.bind_apply,hd,Outcome.andThen_ok,
        List.head?_cons]
      simp only [Proc.bind_apply]
      cases hp : handlePacket s packet b₁ with
      | ok u b₂ =>
        have hf := hc.handlePacket_leaves hs packet
        rw [hp,Outcome.leaves_ok] at hf
        have hrx₂ : b₂.sessions.toMap.rx s = rest := by
          rw [hf.rx,SessionMap.setRx_rx,if_pos rfl]
        rw [Outcome.andThen_ok,Outcome.andThen_ok,← hrx₂]
        apply ih hf.consistent
        · rw [hf.ids]
          exact hs
        · rw [hrx₂]
          omega
      | err e b₂ => rfl
      | abort why => rfl

/-- The turns of one session leave the queues of the others alone. -/
lemma keeps_handleQueued_others (hs : s ∈ m.ids) (packet : Packet T P) :
    Proc.Keeps (fun b : PicoBroker T P Q S M B =>
      b.Consistent b.sessions.toMap ∧ b.sessions.toMap.ids = m.ids ∧
        ∀ t, t ≠ s → b.sessions.toMap.rx t = m.rx t) (handleQueued (s,packet)) := by
  intro b ⟨hc,hids,hrx⟩
  refine (hc.handleQueued_leaves (hids ▸ hs) packet).imp ?_
  intro b' hf
  refine ⟨hf.consistent,hf.ids.trans hids,?_⟩
  intro t ht
  rw [hf.rx,SessionMap.setRx_rx,if_neg ht]
  exact hrx t ht

/-- Draining the listed sessions one after the other. -/
lemma Consistent.drainSessions_eq {l : List ℕ} (h : broker.Consistent m) (hl : l.Nodup)
    (hmem : ∀ s ∈ l, s ∈ m.ids) : Proc.forEach (drainSession (Q+1)) l broker =
      Proc.forEach handleQueued (l.flatMap (fun s => (m.rx s).map (s,·))) broker := by
  induction l generalizing broker m with
  | nil => rfl
  | cons s l ih =>
    rw [List.nodup_cons] at hl
    have hs := hmem s List.mem_cons_self
    have hfuel : (m.rx s).length < Q+1 := by
      have hle := h.shows.rx_length_le s
      omega
    rw [Proc.forEach_cons,List.flatMap_cons,Proc.forEach_append,h.drainSession_eq hs hfuel]
    have hkeep : ∀ x ∈ (m.rx s).map (s,·), Proc.Keeps (fun b : PicoBroker T P Q S M B =>
        b.Consistent b.sessions.toMap ∧ b.sessions.toMap.ids = m.ids ∧
          ∀ t, t ≠ s → b.sessions.toMap.rx t = m.rx t) (handleQueued x) := by
      intro x hx
      obtain ⟨p,-,rfl⟩ := List.mem_map.mp hx
      exact keeps_handleQueued_others hs p
    have hstart : broker.Consistent broker.sessions.toMap ∧ broker.sessions.toMap.ids = m.ids ∧
        ∀ t, t ≠ s → broker.sessions.toMap.rx t = m.rx t := by
      rw [h.toMap_eq]
      exact ⟨h,rfl,fun _ _ => rfl⟩
    have hleaves := Proc.keeps_forEach hkeep broker hstart
    cases hf : Proc.forEach handleQueued ((m.rx s).map (s,·)) broker with
    | ok u b₁ =>
      rw [hf,Outcome.leaves_ok] at hleaves
      obtain ⟨hc,hids,hrx⟩ := hleaves
      rw [Outcome.andThen_ok,Outcome.andThen_ok,ih hc hl.2,SessionMap.flatMap_rx_congr hl.1 hrx]
      · intro t ht
        rw [hids]
        exact hmem t (List.mem_cons_of_mem s ht)
    | err e b₁ => rfl
    | abort why => rfl

lemma Consistent.getAllSessions_eq (h : broker.Consistent m) :
    broker.getAllSessions.reduceOption = m.ids := by
  have hle := h.shows.length_le
  rw [h.shows.ids_eq] at hle ⊢
  rw [getAllSessions,SessionRegistry.getAllSessions,reduceOption_fillSlots,List.filterMap_eq_map',
    List.take_of_length_le]
  · rfl
  · rw [List.length_map]
    rwa [SessionRegistry.ids,List.length_map] at hle

/-- The call handles the waiting packets in order, up to the first handler that fails. -/
lemma Consistent.processAllSessionPackets_eq (h : broker.Consistent m) :
    processAllSessionPackets broker = Proc.forEach handleQueued broker.queued broker := by
  rw [h.queued_eq,SessionMap.queued,← h.drainSessions_eq h.shows.nodup (fun _ hs => hs),
    ← h.getAllSessions_eq]
  rfl

/-- After the turns that the loop took, the packets still waiting are the others. -/
lemma Consistent.forEach_handleQueued {l : List (ℕ × Packet T P)} (h : broker.Consistent m)
    (hl : m.queued = l) : (Proc.forEach handleQueued l broker).Leaves (fun broker' =>
      broker'.Consistent broker'.sessions.toMap ∧ broker'.sessions.toMap.ids = m.ids ∧
      l = (Proc.turns handleQueued l broker).map Prod.snd ++ broker'.sessions.toMap.queued) := by
  induction l generalizing broker m with
  | nil =>
    rw [Proc.forEach_nil,Outcome.leaves_ok,h.toMap_eq,hl]
    exact ⟨h,rfl,rfl⟩
  | cons x l ih =>
    obtain ⟨hx,-,hrest⟩ := SessionMap.queued_eq_cons h.shows.nodup hl
    have hf := h.handleQueued_leaves hx x.2
    rw [Proc.forEach_cons,Proc.turns]
    cases hb : handleQueued x broker with
    | ok u b₁ =>
      rw [hb,Outcome.leaves_ok] at hf
      have hq : b₁.sessions.toMap.queued = l := by
        rw [← hrest]
        exact SessionMap.queued_congr hf.ids hf.rx
      refine (ih hf.consistent hq).imp ?_
      intro b₂ hb₂
      refine ⟨hb₂.1,hb₂.2.1.trans hf.ids,?_⟩
      rw [List.map_cons,List.cons_append,← hb₂.2.2]
    | err e b₁ =>
      rw [hb,Outcome.leaves_err] at hf
      have hq : b₁.sessions.toMap.queued = l := by
        rw [← hrest]
        exact SessionMap.queued_congr hf.ids hf.rx
      refine Outcome.leaves_err.mpr ⟨hf.consistent,hf.ids,?_⟩
      rw [hq]
      rfl
    | abort why => exact Outcome.leaves_abort _ _

/-- The sessions of waiting packets are registered. -/
lemma mem_ids_of_mem_queued {x : ℕ × Packet T P} (hx : x ∈ m.queued) : x.1 ∈ m.ids := by
  obtain ⟨s,hs,hx⟩ := List.mem_flatMap.mp hx
  obtain ⟨p,-,rfl⟩ := List.mem_map.mp hx
  exact hs

/-- What holds whenever a turn starts: the broker is consistent and the ids are those at the call. -/
lemma keeps_handleQueued {x : ℕ × Packet T P} (hx : x.1 ∈ m.ids) :
    Proc.Keeps (fun b : PicoBroker T P Q S M B =>
      b.Consistent b.sessions.toMap ∧ b.sessions.toMap.ids = m.ids) (handleQueued x) := by
  intro b hb
  obtain ⟨hc,hids⟩ := hb
  rw [← hids] at hx
  exact (hc.handleQueued_leaves hx x.2).imp (fun b' hf => ⟨hf.consistent,hf.ids.trans hids⟩)

/-- A turn that succeeds, for a packet that waited when processing started. -/
lemma Consistent.handleQueued_keeps (h : broker.Consistent m) {x : ℕ × Packet T P}
    (hx : x ∈ broker.queued) {b b' : PicoBroker T P Q S M B} {u : Unit}
    (hb : b.Consistent b.sessions.toMap ∧ b.sessions.toMap.ids = m.ids)
    (hstep : handleQueued x b = .ok u b') :
    (b'.Consistent b'.sessions.toMap ∧ b'.sessions.toMap.ids = m.ids) ∧
      x.1 ∈ b.sessions.toMap.ids := by
  rw [h.queued_eq] at hx
  have hmem := mem_ids_of_mem_queued hx
  have hkeep := keeps_handleQueued hmem b hb
  rw [hstep,Outcome.leaves_ok] at hkeep
  refine ⟨hkeep,?_⟩
  rw [hb.2]
  exact hmem

end PicoBroker

end Picobroker
