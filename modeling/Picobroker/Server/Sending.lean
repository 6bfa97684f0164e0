import Picobroker.Server.Alerts
import Picobroker.Server.Cutting
import Picobroker.Server.Outgoing

/-! What the RP2040 server delivers: the bytes on the socket of a client are those of the packets queued
for its session, in order, however many of them each write takes. -/
namespace Picobroker
open Rust

variable {T P Q S M B : ℕ}

namespace Rp2040Server

/-- The bytes of the packets, one after the other. -/
def wire (packets : List (Packet T P)) : Bytes := packets.flatMap (fun p => p.contents.wire)

@[simp] lemma wire_nil : wire ([] : List (Packet T P)) = [] := rfl
@[simp] lemma wire_append (packets packets' : List (Packet T P)) :
    wire (packets ++ packets') = wire packets ++ wire packets' := List.flatMap_append
lemma wire_cons (packet : Packet T P) (packets : List (Packet T P)) :
    wire (packet::packets) = packet.contents.wire ++ wire packets := List.flatMap_cons

namespace Phase

/-- Taken out of the queue of the session and not yet encoded. -/
def packets : Phase T P → List (Packet T P)
  | .notifying _ packets | .sending packets | .writing _ packets => packets
  | _ => []

/-- Encoded and not yet written. -/
def unwritten : Phase T P → Bytes
  | .writing rest _ => rest
  | _ => []

/-- On the way to the loop, or in it. -/
def Staying (phase : Phase T P) : Prop := phase = .accepted ∨ phase = .registered ∨ phase.Looping

variable {phase phase' : Phase T P}

lemma Staying.ne_listening (h : phase.Staying) : phase ≠ .listening := by
  rintro rfl
  obtain he | he | he := h
  · cases he
  · cases he
  · exact he

lemma Moves.staying_of (hm : phase.Moves phase') (h : phase'.Staying) : phase.Staying := by
  cases hm with
  | loops from' => exact .inr (.inr from')
  | registered => exact .inl rfl
  | listed => exact .inr (.inl rfl)
  | refused | unlisted | left =>
    obtain he | he | he := h
    · cases he
    · cases he
    · exact he.elim

/-- A task registers its session once. -/
lemma Moves.of_registering (hm : phase.Moves phase') :
    phase' ≠ .accepted ∧ (phase' = .registered → phase = .accepted) := by
  cases hm with
  | loops _ to' =>
    constructor
    · rintro rfl
      obtain he | he := to'
      · exact he
      · cases he
    · rintro rfl
      obtain he | he := to'
      · exact he.elim
      · cases he
  | registered | refused | listed | unlisted | left => exact ⟨by simp,by simp⟩

end Phase

/-- In the hands of the task. -/
def Slot.inHand (slot : Slot T P) : Bytes := slot.phase.unwritten ++ wire slot.phase.packets

/-- The limits of the crate and those of the board: a batch holds a full queue, and a buffer any packet. -/
structure Config.Suits (cfg : Config) (T P Q : ℕ) : Prop where
  word : 32 ≤ cfg.wordBits
  topic : T ≤ 255
  payload : P ≤ 65535
  batch : Q ≤ 8
  buffer : maxOutgoing T P ≤ cfg.rxBufferSize

/-- The task holds nothing that its encoder could refuse. -/
structure Slot.Carries (cfg : Config) (slot : Slot T P) : Prop where
  received : ∀ packet, slot.phase = .received packet → packet.WellFormed
  packets : ∀ p ∈ slot.phase.packets, p.Sendable
  txBuffer : slot.phase.Looping → slot.txBuffer.length = cfg.rxBufferSize

namespace Slot

variable {cfg : Config} {slot slot' : Slot T P} {action : Action} {now totalLen : ℕ}

lemma Carries.setPhase (hc : slot.Carries cfg) {phase : Phase T P}
    (hreceived : ∀ packet, phase ≠ .received packet) (hpackets : ∀ p ∈ phase.packets, p.Sendable)
    (hl : phase.Looping → slot.phase.Looping) : ({ slot with phase } : Slot T P).Carries cfg :=
  ⟨fun packet he => absurd he (hreceived packet),hpackets,fun h => hc.txBuffer (hl h)⟩

/-- The packet to send next has room in the buffer. -/
lemma Carries.fits (hc : slot.Carries cfg) (hf : cfg.Suits T P Q) {packet : Packet T P}
    {packets : List (Packet T P)} (phase : slot.phase = .sending (packet::packets)) :
    packet.WellFormed ∧ packet.contents.wire.length ≤ slot.txBuffer.length := by
  have hpackets := hc.packets
  rw [phase] at hpackets
  have hsend := hpackets packet List.mem_cons_self
  refine ⟨hsend.wellFormed,?_⟩
  rw [hc.txBuffer (by rw [phase]; trivial)]
  exact hsend.length_le.trans hf.buffer

lemma cut_carries (hf : cfg.Suits T P Q) (hs : slot.cut cfg.wordBits now totalLen = some slot')
    (htx : slot.txBuffer.length = cfg.rxBufferSize) :
    slot'.Carries cfg ∧ slot'.socket = slot.socket ∧ slot'.inHand = [] := by
  obtain ⟨-,rfl⟩ | ⟨-,packet,decode,rfl⟩ | rfl := cut_cases hs
  · exact ⟨⟨by simp,by simp [Phase.packets],fun _ => htx⟩,rfl,rfl⟩
  · refine ⟨⟨?_,by simp [Phase.packets],fun _ => htx⟩,rfl,rfl⟩
    rintro _ ⟨⟩
    exact Packet.wellFormed_of_decode hf.word hf.topic hf.payload decode
  · exact ⟨⟨by simp,by simp [Phase.packets],fun _ => htx⟩,rfl,rfl⟩

/-- What a step of its own does to the bytes for the client. Only a write that fails loses some. -/
lemma Steps.sends (hf : cfg.Suits T P Q) (hs : slot.Steps cfg action slot') (hc : slot.Carries cfg) :
    slot'.Carries cfg ∧ ∃ out, slot'.socket = slot.socket ++ out ∧ out <+: slot.inHand ∧
      (action ≠ .writeFails → slot'.phase.Looping → out ++ slot'.inHand = slot.inHand) := by
  have htx := hc.txBuffer hs.alone.looping
  -- nothing is in the hands of the task, and nothing is written
  have hquiet : ∀ {slot₁ : Slot T P}, slot.inHand = [] → slot₁.socket = slot.socket →
      slot₁.inHand = [] → ∃ out, slot₁.socket = slot.socket ++ out ∧ out <+: slot.inHand ∧
        (action ≠ .writeFails → slot₁.phase.Looping → out ++ slot₁.inHand = slot.inHand) := by
    intro slot₁ hold hsocket hnew
    refine ⟨[],by rw [hsocket,List.append_nil],List.nil_prefix,fun _ _ => ?_⟩
    rw [hold,hnew]
    rfl
  cases hs with
  | @started n now _ phase _ pos start =>
    have hold : slot.inHand = [] := by obtain he | he := phase <;> rw [inHand,he] <;> rfl
    obtain ⟨-,rfl⟩ | ⟨-,r,k,-,cut⟩ | rfl := start_cases start
    · exact ⟨⟨by simp,by simp [Phase.packets],fun _ => htx⟩,hquiet hold rfl rfl⟩
    · obtain ⟨hcarries,hsocket,hnew⟩ := cut_carries hf cut htx
      exact ⟨hcarries,hquiet hold hsocket hnew⟩
    · exact ⟨⟨by simp,by simp [Phase.packets],fun _ => htx⟩,hquiet hold rfl rfl⟩
  | filled phase _ _ cut =>
    obtain ⟨hcarries,hsocket,hnew⟩ := cut_carries hf cut htx
    exact ⟨hcarries,hquiet (by rw [inHand,phase]; rfl) hsocket hnew⟩
  | ended phase =>
    refine ⟨⟨by simp,by simp [Phase.packets],fun _ => htx⟩,hquiet ?_ rfl rfl⟩
    obtain he | ⟨totalLen,he⟩ := phase <;> rw [inHand,he] <;> rfl
  | broken phase =>
    refine ⟨⟨by simp,by simp [Phase.packets],fun _ => htx⟩,hquiet ?_ rfl rfl⟩
    obtain he | he | ⟨totalLen,he⟩ := phase <;> rw [inHand,he] <;> rfl
  | paused phase | expired phase | finished phase =>
    exact ⟨⟨by simp,by simp [Phase.packets],fun _ => htx⟩,
      hquiet (by rw [inHand,phase]; rfl) rfl rfl⟩
  | informed phase =>
    have hpackets := hc.packets
    rw [phase] at hpackets
    refine ⟨⟨by simp,hpackets,fun _ => htx⟩,[],by simp,List.nil_prefix,fun _ _ => ?_⟩
    rw [inHand,inHand,phase]
    rfl
  | @encoded packet packets size txBuffer phase encode =>
    have hpackets := hc.packets
    rw [phase] at hpackets
    obtain ⟨hwf,hfits⟩ := hc.fits hf phase
    rw [Packet.encode_eq hf.topic hf.payload hwf hfits] at encode
    cases encode
    refine ⟨⟨by simp,fun p hp => hpackets p (List.mem_cons_of_mem _ hp),fun _ => ?_⟩,[],by simp,
      List.nil_prefix,fun _ _ => ?_⟩
    · rw [List.length_append,List.length_drop,Nat.add_sub_cancel' hfits]
      exact htx
    · rw [inHand,inHand,phase,List.take_left]
      exact (wire_cons packet packets).symm
  | @refused packet packets error txBuffer phase encode =>
    obtain ⟨hwf,hfits⟩ := hc.fits hf phase
    rw [Packet.encode_eq hf.topic hf.payload hwf hfits] at encode
    cases encode
  | sent phase =>
    have hpackets := hc.packets
    rw [phase] at hpackets
    refine ⟨⟨by simp,hpackets,fun _ => htx⟩,[],by simp,List.nil_prefix,fun _ _ => ?_⟩
    rw [inHand,inHand,phase]
    rfl
  | @wrote n rest packets phase _ le =>
    have hpackets := hc.packets
    rw [phase] at hpackets
    have hhand : slot.inHand = rest ++ wire packets := by
      rw [inHand,phase]
      rfl
    refine ⟨⟨by simp,hpackets,fun _ => htx⟩,rest.take n,rfl,?_,fun _ _ => ?_⟩
    · rw [hhand]
      exact (List.take_prefix n rest).trans (List.prefix_append _ _)
    · rw [hhand,inHand,← List.append_assoc]
      change rest.take n ++ rest.drop n ++ wire packets = _
      rw [List.take_append_drop]
  | dropped =>
    refine ⟨⟨by simp,by simp [Phase.packets],fun _ => htx⟩,[],by simp,List.nil_prefix,?_⟩
    exact fun hne => absurd rfl hne

end Slot

namespace System

variable {cfg : Config} {system system' : System T P Q S M B} {i j : Fin S} {action : Action} {n : ℕ}
  {hist : List (System T P Q S M B × Event S)}

/-- What was queued for a session since the task `i` accepted its last client. -/
def entered (i : Fin S) (hist : List (System T P Q S M B × Event S)) (s : ℕ) : List (Packet T P) :=
  (visit i hist).flatMap (entering s)

/-- The bytes on their way to the client of the task `i`: in its hands, and then in the queue of its
session. -/
def pipeline (i : Fin S) (system : System T P Q S M B) : Bytes :=
  (system.slots i).inHand ++ wire (system.broker.tx (system.slots i).sessionId)

/-- The session of the task is registered, unless the task has still to do so. -/
def Intact (i : Fin S) (system : System T P Q S M B) : Prop :=
  (system.slots i).phase.Staying ∧ ((system.slots i).phase ≠ .accepted →
    (system.slots i).sessionId ∈ system.broker.sessions.ids)

/-- With room for all of them, the packets are pushed one behind the other. -/
lemma foldl_push {packets packets' : List (Packet T P)} (h : (packets ++ packets').length ≤ 8) :
    packets'.foldl push packets = packets ++ packets' := by
  induction packets' generalizing packets with
  | nil => simp
  | cons packet packets' ih =>
    have hlt : packets.length < 8 := by
      rw [List.length_append,List.length_cons] at h
      omega
    rw [List.foldl_cons,push,if_pos hlt,ih (by simpa using h)]
    simp

section Effect

variable {s t : ℕ} {broker broker' : PicoBroker T P Q S M B} {queued : ℕ → List (Packet T P)}
  {phase phase' : Phase T P}

/-- The queue of another session only grows by what is queued for it. -/
lemma Effect.tx_other (he : Effect s broker queued phase phase' broker')
    (hc : broker.Consistent broker.sessions.toMap) (hts : t ≠ s) :
    broker'.tx t = broker.tx t ++ queued t := by
  cases he with
  | none _ _ _ _ _ quiet => rw [quiet,List.append_nil]
  | registered _ _ quiet consistent =>
    rw [consistent.tx_eq,SessionMap.add_tx,if_neg hts,← hc.tx_eq,quiet,List.append_nil]
  | served _ grown tx _ consistent =>
    rw [consistent.tx_eq,SessionMap.setTx_tx,if_neg hts,← grown.consistent.tx_eq,tx]
  | failed _ _ tx => exact tx t
  | fetched _ quiet consistent =>
    rw [consistent.tx_eq,SessionMap.setTx_tx,if_neg hts,← hc.tx_eq,quiet,List.append_nil]
  | left quiet =>
    rw [(hc.removeSession s).tx_eq,SessionMap.remove_tx,if_neg hts,← hc.tx_eq,quiet,List.append_nil]

end Effect

/-- A queue fits into one batch. -/
lemma foldl_push_tx {broker : PicoBroker T P Q S M B} (hQ : Q ≤ 8)
    (h : broker.Consistent broker.sessions.toMap) (s : ℕ) :
    (broker.tx s).foldl push [] = broker.tx s := by
  refine (foldl_push ?_).trans (List.nil_append _)
  rw [List.nil_append,h.tx_eq]
  exact (h.shows.tx_length_le s).1.trans hQ

/-- What the tasks hold stays such that the encoder accepts it, and so do the queues. -/
lemma Acts.carries (ha : Acts cfg i system action system') (hf : cfg.Suits T P Q)
    (hb : system.broker.Clean) (hc : (system.slots i).Carries cfg) :
    (system'.slots i).Carries cfg ∧ system'.broker.Clean := by
  have he := ha.effect hb.consistent
  cases ha with
  | alone steps =>
    rw [put_slots_self]
    exact ⟨(steps.sends hf hc).1,hb⟩
  | @registered currentTime broker phase call =>
    rw [setPhase_slots_self]
    refine ⟨hc.setPhase (by simp) (by simp [Phase.packets]) (fun hl => hl.elim),?_⟩
    refine hb.next (.registerNewSession (system.slots i).sessionId cfg.defaultKeepAlive currentTime)
      ?_ (by simp) (by simp)
    exact congrArg Outcome.state? call
  | @refused currentTime error broker phase call =>
    rw [setPhase_slots_self]
    refine ⟨hc.setPhase (by simp) (by simp [Phase.packets]) (fun hl => hl.elim),?_⟩
    refine hb.next (.registerNewSession (system.slots i).sessionId cfg.defaultKeepAlive currentTime)
      ?_ (by simp) (by simp)
    exact congrArg Outcome.state? call
  | listed =>
    rw [put_slots_self]
    exact ⟨⟨by simp,by simp [Phase.packets],fun _ => List.length_replicate⟩,hb⟩
  | served phase call =>
    have hwf := hc.received _ phase
    have hb' := PicoBroker.keeps_serve hf.topic hf.payload hwf push _ _ _ hb _
      (congrArg Outcome.state? call)
    rw [setPhase_slots_self] at he ⊢
    rw [phase] at he
    refine ⟨hc.setPhase (by simp) ?_ (fun _ => by rw [phase]; trivial),hb'⟩
    cases he with
    | none _ _ _ _ received => cases received _ rfl
    | served _ grown tx _ _ _ pushed =>
      intro p hp
      rw [Phase.packets,pushed,foldl_push_tx hf.batch grown.consistent,tx] at hp
      obtain hp | hp := List.mem_append.mp hp
      · exact hb.sendable _ p hp
      · rw [entering_serve phase] at hp
        exact hb.queuedFor hf.topic hf.payload hwf _ hp
  | failed phase call =>
    have hwf := hc.received _ phase
    have hb' := PicoBroker.keeps_serve hf.topic hf.payload hwf push _ _ _ hb _
      (congrArg Outcome.state? call)
    rw [setPhase_slots_self]
    exact ⟨hc.setPhase (by simp) (by simp [Phase.packets]) (fun hl => hl.elim),hb'⟩
  | notified phase =>
    have hpackets := hc.packets
    rw [phase] at hpackets
    rw [setPhase_slots_self]
    exact ⟨hc.setPhase (by simp) hpackets (fun _ => by rw [phase]; trivial),hb⟩
  | woken phase =>
    rw [setPhase_slots_self]
    exact ⟨hc.setPhase (by simp) (by simp [Phase.packets]) (fun _ => by rw [phase]; trivial),hb⟩
  | fetched phase call =>
    have hb' := PicoBroker.keeps_dequeueInto _ _ _ _ _ hb _ (congrArg Outcome.state? call)
    rw [setPhase_slots_self] at he ⊢
    rw [phase] at he
    refine ⟨hc.setPhase (by simp) ?_ (fun _ => by rw [phase]; trivial),hb'⟩
    cases he with
    | none _ woken => exact absurd rfl woken
    | fetched _ _ _ pushed =>
      rw [Phase.packets,pushed,foldl_push_tx hf.batch hb.consistent]
      exact hb.sendable _
  | unlisted =>
    rw [setPhase_slots_self]
    exact ⟨hc.setPhase (by simp) (by simp [Phase.packets]) (fun hl => hl.elim),hb⟩
  | left =>
    rw [setPhase_slots_self]
    refine ⟨hc.setPhase (by simp) (by simp [Phase.packets]) (fun hl => hl.elim),?_⟩
    exact hb.next (.removeSession (system.slots i).sessionId) rfl (by simp) (by simp)

/-- What a step does to the bytes of its own task: it writes from the front of the pipeline, and what it
queues comes in at the back. -/
lemma Acts.own_pipeline (ha : Acts cfg i system action system') (hf : cfg.Suits T P Q)
    (hb : system.broker.Clean) (hc : (system.slots i).Carries cfg)
    (hfresh : (system.slots i).phase = .accepted →
      (system.slots i).sessionId ∉ system.broker.sessions.ids) :
    ∃ out, (system'.slots i).socket = (system.slots i).socket ++ out ∧
      (out = [] ∨ (system.slots i).phase.Looping ∧ out <+: (system.slots i).inHand) ∧
      (action ≠ .writeFails → (system'.slots i).phase.Staying → out ++ pipeline i system' =
        pipeline i system ++ wire (entering (system.slots i).sessionId (system,.task i action))) := by
  have he := ha.effect hb.consistent
  have hid := ha.moves.1
  -- a step that writes nothing
  have hset : ∀ {phase phase' : Phase T P}, (system.slots i).phase = phase →
      (system'.slots i).phase = phase' → (system'.slots i).socket = (system.slots i).socket →
      (phase'.Staying → phase'.unwritten ++ wire phase'.packets ++
        wire (system'.broker.tx (system.slots i).sessionId) =
          phase.unwritten ++ wire phase.packets ++ wire (system.broker.tx (system.slots i).sessionId) ++
            wire (entering (system.slots i).sessionId (system,.task i action))) →
      ∃ out, (system'.slots i).socket = (system.slots i).socket ++ out ∧
        (out = [] ∨ (system.slots i).phase.Looping ∧ out <+: (system.slots i).inHand) ∧
        (action ≠ .writeFails → (system'.slots i).phase.Staying → out ++ pipeline i system' =
          pipeline i system ++ wire (entering (system.slots i).sessionId (system,.task i action))) := by
    intro phase phase' hphase hphase' hsocket hflow
    refine ⟨[],by rw [hsocket,List.append_nil],.inl rfl,fun _ hstays => ?_⟩
    rw [hphase'] at hstays
    rw [List.nil_append,pipeline,pipeline,hid,Slot.inHand,Slot.inHand,hphase,hphase']
    exact hflow hstays
  have hleaves : ∀ {phase : Phase T P}, ¬ phase.Looping → phase ≠ .accepted → phase ≠ .registered →
      ¬ phase.Staying := by
    rintro phase hl ha hr (he | he | he)
    · exact ha he
    · exact hr he
    · exact hl he
  cases ha with
  | @alone action slot steps =>
    rw [put_slots_self] at hid ⊢
    obtain ⟨-,out,hsocket,hpre,hflow⟩ := steps.sends hf hc
    refine ⟨out,hsocket,.inr ⟨steps.alone.looping,hpre⟩,fun hne hstays => ?_⟩
    have hloop : slot.phase.Looping := by
      obtain hl | hclosing := steps.moves.2
      · exact hl
      · rw [hclosing] at hstays
        exact absurd hstays (hleaves id (by simp) (by simp))
    have hnone : entering (system.slots i).sessionId (system,.task i action) = [] := by
      apply entering_of_ne
      rintro currentTime rfl
      cases steps
    rw [hnone,wire_nil,List.append_nil,pipeline,pipeline,put_slots_self,hid,← hflow hne hloop,
      List.append_assoc]
    rfl
  | registered phase =>
    rw [setPhase_slots_self,phase] at he
    refine hset phase (by rw [setPhase_slots_self]) (by rw [setPhase_slots_self]) (fun _ => ?_)
    have hnil : system.broker.tx (system.slots i).sessionId = [] :=
      (hb.consistent.shows.find_none (hfresh phase)).2.2.2
    cases he with
    | none _ _ _ registered => exact absurd rfl registered
    | registered _ _ _ consistent =>
      rw [consistent.tx_eq,SessionMap.add_tx,if_pos rfl,entering_of_ne (by simp),hnil]
      rfl
  | served phase =>
    rw [setPhase_slots_self,phase] at he
    refine hset phase (by rw [setPhase_slots_self]) (by rw [setPhase_slots_self]) (fun _ => ?_)
    cases he with
    | none _ _ _ _ received => cases received _ rfl
    | served _ grown tx _ consistent _ pushed =>
      rw [consistent.tx_eq,SessionMap.setTx_tx,if_pos rfl,pushed,
        foldl_push_tx hf.batch grown.consistent,tx,Phase.packets,wire_append,wire_nil,List.append_nil]
      rfl
  | fetched phase =>
    rw [setPhase_slots_self,phase] at he
    refine hset phase (by rw [setPhase_slots_self]) (by rw [setPhase_slots_self]) (fun _ => ?_)
    cases he with
    | none _ woken => exact absurd rfl woken
    | fetched _ _ consistent pushed =>
      rw [consistent.tx_eq,SessionMap.setTx_tx,if_pos rfl,pushed,foldl_push_tx hf.batch hb.consistent,
        entering_of_ne (by simp),Phase.packets,wire_nil,List.append_nil,List.append_nil]
      rfl
  | listed phase =>
    refine hset phase (by rw [put_slots_self]) (by rw [put_slots_self]) (fun _ => ?_)
    rw [entering_of_ne (by simp),wire_nil,List.append_nil]
    rfl
  | notified phase | woken phase =>
    refine hset phase (by rw [setPhase_slots_self]) (by rw [setPhase_slots_self]) (fun _ => ?_)
    rw [entering_of_ne (by simp),wire_nil,List.append_nil]
    rfl
  | refused phase | failed phase | unlisted phase | left phase =>
    refine hset phase (by rw [setPhase_slots_self]) (by rw [setPhase_slots_self]) (fun hstays => ?_)
    exact absurd hstays (hleaves id (by simp) (by simp))

lemma entering_missing {s : ℕ} (hc : system.broker.Consistent system.broker.sessions.toMap)
    (hs : s ∉ system.broker.sessions.ids) (event : Event S) : entering s (system,event) = [] := by
  unfold entering
  split
  · exact hc.queuedFor_missing hs
  · rfl

/-- Two tasks with connections have two sessions. -/
lemma Pooled.ids_ne (hp : Pooled n system) (hlen : n ≤ 2^32) (ha : Acts cfg i system action system')
    (hj : j ≠ i) (hl : (system.slots j).phase ≠ .listening) :
    (system.slots j).sessionId ≠ (system.slots i).sessionId :=
  fun he => hj (hp.distinct hlen j i hl ha.moves.2.not_listening he)

/-- What a step does to the bytes of any task. -/
lemma Acts.pipeline (ha : Acts cfg i system action system') (hf : cfg.Suits T P Q)
    (hp : Pooled n system) (hlen : n ≤ 2^32) (hb : system.broker.Clean)
    (hc : (system.slots j).Carries cfg) (hne : j = i → action ≠ .writeFails) :
    ∃ out, (system'.slots j).socket = (system.slots j).socket ++ out ∧
      (out = [] ∨ (system.slots j).phase.Looping ∧ out <+: (system.slots j).inHand) ∧
      ((system'.slots j).phase.Staying → out ++ System.pipeline j system' =
        System.pipeline j system ++
          wire (entering (system.slots j).sessionId (system,.task i action))) := by
  by_cases hj : j = i
  · subst hj
    obtain ⟨out,hsocket,hout,hflow⟩ := ha.own_pipeline hf hb hc (fun phase => (hp.room hlen phase).2)
    exact ⟨out,hsocket,hout,hflow (hne rfl)⟩
  · have hsame := ha.slots_of_ne hj
    refine ⟨[],by rw [hsame,List.append_nil],.inl rfl,fun hstays => ?_⟩
    rw [hsame] at hstays
    rw [System.pipeline,System.pipeline,hsame,(ha.effect hb.consistent).tx_other hb.consistent
      (hp.ids_ne hlen ha hj hstays.ne_listening),wire_append,List.nil_append,List.append_assoc]

/-- A session that is registered after a step of its task in the loop was so before. -/
lemma Acts.intact (ha : Acts cfg i system action system') (hp : Pooled n system) (hlen : n ≤ 2^32)
    (h : Intact j system') : Intact j system := by
  have hc := hp.consistent
  have he := ha.effect hc
  obtain ⟨hstays,hmem⟩ := h
  by_cases hj : j = i
  · subst hj
    obtain ⟨hid,hm⟩ := ha.moves
    obtain ⟨hne,hfrom⟩ := hm.of_registering
    refine ⟨hm.staying_of hstays,fun hphase => ?_⟩
    obtain ⟨hmem,-⟩ | hreg := he.mem_own hc (hid ▸ hmem hne)
    · exact hmem
    · exact absurd (hfrom hreg) hphase
  · rw [ha.slots_of_ne hj] at hstays hmem
    refine ⟨hstays,fun hphase => ?_⟩
    exact (he.mem_ids hc (hp.ids_ne hlen ha hj hstays.ne_listening)).mp (hmem hphase)

/-- What the client of a task got, and what is known of the rest of what was queued for it. -/
def Accounted (hist : List (System T P Q S M B × Event S)) (i : Fin S)
    (system : System T P Q S M B) : Prop :=
  ∃ rest, (system.slots i).socket ++ rest = wire (entered i hist (system.slots i).sessionId) ∧
    (Intact i system → rest = pipeline i system) ∧
    ((system.slots i).phase.Staying → pipeline i system <+: rest)

lemma entered_concat {e : System T P Q S M B × Event S} (h : offeredBy i e = none) (s : ℕ) :
    entered i (hist ++ [e]) s = entered i hist s ++ entering s e := by
  rw [entered,(visit_concat h).2,List.flatMap_append,List.flatMap_singleton,entered]

lemma Accounted.acts (hacc : Accounted hist j system) (ha : Acts cfg i system action system')
    (hf : cfg.Suits T P Q) (hp : Pooled n system) (hlen : n ≤ 2^32) (hb : system.broker.Clean)
    (hc : (system.slots j).Carries cfg) (hne : j = i → action ≠ .writeFails) :
    Accounted (hist ++ [(system,.task i action)]) j system' := by
  obtain ⟨rest,hall,hintact,hpre⟩ := hacc
  obtain ⟨out,hsocket,hout,hflow⟩ := ha.pipeline hf hp hlen hb hc hne
  obtain ⟨rest',rfl⟩ : out <+: rest := by
    obtain rfl | ⟨hloop,hout⟩ := hout
    · exact List.nil_prefix
    · exact (hout.trans (List.prefix_append _ _)).trans (hpre (.inr (.inr hloop)))
  have hsame : (system'.slots j).sessionId = (system.slots j).sessionId ∧
      ((system'.slots j).phase.Staying → (system.slots j).phase.Staying) := by
    by_cases hj : j = i
    · subst hj
      exact ⟨ha.moves.1,ha.moves.2.staying_of⟩
    · rw [ha.slots_of_ne hj]
      exact ⟨rfl,id⟩
  refine ⟨rest' ++ wire (entering (system.slots j).sessionId (system,.task i action)),?_,?_,?_⟩
  · rw [hsocket,hsame.1,entered_concat rfl,wire_append,← hall]
    simp only [List.append_assoc]
  · intro hin
    have heq := hflow hin.1
    rw [← hintact (ha.intact hp hlen hin),List.append_assoc] at heq
    exact (List.append_cancel_left heq).symm
  · intro hstays
    have heq := hflow hstays
    have hold := hsame.2 hstays
    by_cases hin : Intact j system
    · rw [← hintact hin,List.append_assoc] at heq
      rw [List.append_cancel_left heq]
    · -- nothing is queued any more for a session that is gone
      have hgone : (system.slots j).sessionId ∉ system.broker.sessions.ids :=
        fun hmem => hin ⟨hold,fun _ => hmem⟩
      rw [entering_missing hb.consistent hgone,wire_nil,List.append_nil] at heq ⊢
      have hle := hpre hold
      rw [← heq] at hle
      exact (List.prefix_append_right_inj out).mp hle

/-- The queue of a session that the cleanup removes is lost, and nothing else. -/
lemma Accounted.cleaned (hacc : Accounted hist j system) (hp : Pooled n system) (hlen : n ≤ 2^32)
    (currentTime : ℕ) : Accounted (hist ++ [(system,.cleanup currentTime)]) j
      { system with broker := system.broker.cleaned currentTime } := by
  obtain ⟨rest,hall,hintact,hpre⟩ := hacc
  have hc := hp.consistent
  refine ⟨rest,?_,?_,?_⟩
  · rw [entered_concat rfl,wire_append,hall]
    exact (List.append_nil _).symm
  · rintro ⟨hstays,hmem⟩
    have htx : (system.broker.cleaned currentTime).tx (system.slots j).sessionId =
        system.broker.tx (system.slots j).sessionId := by
      by_cases hphase : (system.slots j).phase = .accepted
      · obtain hnil | hsame := hc.tx_cleaned currentTime (system.slots j).sessionId
        · rw [hnil]
          exact (hc.shows.find_none (hp.room hlen hphase).2).2.2.2.symm
        · exact hsame
      · exact hc.tx_cleaned_of_mem currentTime (hmem hphase)
    rw [hintact ⟨hstays,fun hphase => ((hc.mem_cleaned currentTime _).mp (hmem hphase)).1⟩]
    exact congrArg (fun packets => (system.slots j).inHand ++ wire packets) htx.symm
  · intro hstays
    refine List.IsPrefix.trans ?_ (hpre hstays)
    refine (List.prefix_append_right_inj _).mpr ?_
    change wire ((system.broker.cleaned currentTime).tx (system.slots j).sessionId) <+: _
    obtain hnil | hsame := hc.tx_cleaned currentTime (system.slots j).sessionId
    · rw [hnil]
      exact List.nil_prefix
    · rw [hsame]

/-- No write to the last client of the task `i` failed. -/
def Unbroken (i : Fin S) (hist : List (System T P Q S M B × Event S)) : Prop :=
  ∀ e ∈ visit i hist, e.2 ≠ .task i .writeFails

instance (i : Fin S) (hist : List (System T P Q S M B × Event S)) : Decidable (Unbroken i hist) :=
  inferInstanceAs (Decidable (∀ e ∈ visit i hist, e.2 ≠ .task i .writeFails))

lemma Unbroken.of_concat {e : System T P Q S M B × Event S} (h : Unbroken i (hist ++ [e]))
    (he : offeredBy i e = none) : Unbroken i hist ∧ e.2 ≠ .task i .writeFails := by
  rw [Unbroken,(visit_concat he).2] at h
  exact ⟨fun e he => h e (List.mem_append_left _ he),h e (List.mem_append_right _ List.mem_cons_self)⟩

/-- What is known after a run of what was queued for the clients. -/
structure Delivered (cfg : Config) (hist : List (System T P Q S M B × Event S))
    (system : System T P Q S M B) : Prop where
  pooled : Pooled (accepted hist) system
  clean : system.broker.Clean
  carries : ∀ i, (system.slots i).Carries cfg
  accounted : accepted hist ≤ 2^32 → ∀ i, Unbroken i hist → Accounted hist i system

lemma delivered_new : Delivered cfg [] (new : System T P Q S M B) := by
  refine ⟨pooled_new,PicoBroker.clean_new,fun i => ?_,fun _ i _ => ?_⟩
  · exact ⟨fun packet he => (by cases he),fun p hp => (by cases hp),fun hl => hl.elim⟩
  · refine ⟨[],rfl,fun hin => ?_,fun hstays => ?_⟩
    · exact absurd rfl hin.1.ne_listening
    · exact absurd rfl hstays.ne_listening

/-- A client for which nothing has been queued. -/
lemma accounted_accepted {e : System T P Q S M B × Event S} {stream : Bytes}
    (hp : Pooled n system) (hlen : n ≤ 2^32) (he : offeredBy i e = some stream)
    (hslot : (system.slots i).phase = .accepted) (hsocket : (system.slots i).socket = []) :
    Accounted (hist ++ [e]) i system := by
  have htx : system.broker.tx (system.slots i).sessionId = [] :=
    (hp.consistent.shows.find_none (hp.room hlen hslot).2).2.2.2
  have hnil : pipeline i system = [] := by
    rw [pipeline,htx,Slot.inHand,hslot]
    rfl
  refine ⟨[],?_,fun _ => hnil.symm,fun _ => hnil ▸ List.prefix_rfl⟩
  rw [hsocket,entered,(visit_accept hist he).2]
  rfl

lemma Delivered.next (hd : Delivered cfg hist system) (hf : cfg.Suits T P Q) {event : Event S}
    (hn : system.next cfg event = some system') :
    Delivered cfg (hist ++ [(system,event)]) system' := by
  have hp := hd.pooled
  have hle : accepted hist ≤ accepted (hist ++ [(system,event)]) := by
    rw [accepted_concat]
    exact Nat.le_add_right _ _
  have hp' : Pooled (accepted (hist ++ [(system,event)])) system' := by
    rw [accepted_concat]
    exact hp.next hn
  cases steps_of_next hn with
  | @acted i action _ acts =>
    obtain ⟨hcarries,hclean⟩ := acts.carries hf hd.clean (hd.carries i)
    refine ⟨hp',hclean,fun j => ?_,fun hlen j hu => ?_⟩
    · by_cases hj : j = i
      · rw [hj]
        exact hcarries
      · rw [acts.slots_of_ne hj]
        exact hd.carries j
    · obtain ⟨hu,hne⟩ := hu.of_concat rfl
      refine (hd.accounted (hle.trans hlen) j hu).acts acts hf hp (hle.trans hlen) hd.clean
        (hd.carries j) ?_
      rintro rfl rfl
      exact hne rfl
  | @cleaned currentTime broker scan =>
    obtain rfl := eq_cleaned_of_cleanup hp.consistent scan
    refine ⟨hp',hd.clean.cleaned currentTime,hd.carries,fun hlen j hu => ?_⟩
    exact (hd.accounted (hle.trans hlen) j (hu.of_concat rfl).1).cleaned hp (hle.trans hlen) currentTime
  | @accepted i ticks stream phase =>
    refine ⟨hp',hd.clean,fun j => ?_,fun hlen j hu => ?_⟩
    · by_cases hj : j = i
      · rw [hj,put_slots_self]
        exact ⟨fun packet he => (by cases he),fun p hp => (by cases hp),fun hl => hl.elim⟩
      · rw [put_slots_of_ne hj]
        exact hd.carries j
    · by_cases hj : j = i
      · subst hj
        exact accounted_accepted hp' hlen (offeredBy_accept j ticks stream system)
          (by rw [put_slots_self]) (by rw [put_slots_self])
      · have hoff : offeredBy j (system,.accept i ticks stream) = none := by
          refine offeredBy_of_ne ?_
          rintro ticks' stream' he
          cases he
          exact hj rfl
        obtain ⟨rest,hall,hintact,hpre⟩ := hd.accounted (hle.trans hlen) j (hu.of_concat hoff).1
        rw [Accounted,Intact,pipeline,put_slots_of_ne hj,entered_concat hoff,wire_append]
        refine ⟨rest,?_,hintact,hpre⟩
        rw [hall]
        exact (List.append_nil _).symm

lemma delivered_of_run (hf : cfg.Suits T P Q) (hr : Run (next cfg) new hist system) :
    Delivered cfg hist system :=
  hr.history (H := Delivered cfg) delivered_new (fun _ _ _ _ _ hd hn => hd.next hf hn)

/-- Whatever the order in which the tasks of the pool run and the number of bytes that each write takes:
a client gets the packets that were queued for its session, whole and in order, until a write fails.
While its session is registered and its task in the loop, what it did not get is in the hands of the task
or in the queue of the session. -/
theorem delivered_whole (hf : cfg.Suits T P Q) (hr : Run (next cfg) new hist system)
    (hlen : accepted hist ≤ 2^32) (hu : Unbroken i hist) :
    (system.slots i).socket <+: wire (entered i hist (system.slots i).sessionId) ∧
    ((system.slots i).phase.Looping → (system.slots i).socket ++ pipeline i system <+:
      wire (entered i hist (system.slots i).sessionId)) ∧
    ((system.slots i).phase.Looping → (system.slots i).sessionId ∈ system.broker.sessions.ids →
      (system.slots i).socket ++ pipeline i system =
        wire (entered i hist (system.slots i).sessionId)) := by
  obtain ⟨rest,hall,hintact,hpre⟩ := (delivered_of_run hf hr).accounted hlen i hu
  rw [← hall]
  refine ⟨List.prefix_append _ _,fun hloop => ?_,fun hloop hmem => ?_⟩
  · exact (List.prefix_append_right_inj _).mpr (hpre (.inr (.inr hloop)))
  · rw [hintact ⟨.inr (.inr hloop),fun _ => hmem⟩]

/-- The subscriber fetches the packet, and the socket takes four of its bytes. -/
def halfwayEvents : List (Event 2) := publishEvents ++
  [.task firstTask .wake,.task firstTask .fetch,.task firstTask .send,.task firstTask (.write 4)]

def halfway : System 1 1 1 2 1 2 := (exec (next boardConfig) new halfwayEvents).get (by decide)
def halfwayTrace : List (System 1 1 1 2 1 2 × Event 2) := trace (next boardConfig) new halfwayEvents

/-- The task of the subscriber. -/
def subscriber : Slot 1 1 := halfway.slots firstTask

theorem delivered_whole_halfway :
    subscriber.socket <+: wire (entered firstTask halfwayTrace subscriber.sessionId) ∧
    (subscriber.phase.Looping → subscriber.socket ++ pipeline firstTask halfway <+:
      wire (entered firstTask halfwayTrace subscriber.sessionId)) ∧
    (subscriber.phase.Looping → subscriber.sessionId ∈ halfway.broker.sessions.ids →
      subscriber.socket ++ pipeline firstTask halfway =
        wire (entered firstTask halfwayTrace subscriber.sessionId)) :=
  delivered_whole ⟨by decide,by decide,by decide,by decide,by decide⟩
    (run_trace (Option.some_get (by decide)).symm) (by decide) (by decide)

end System

end Rp2040Server

end Picobroker
