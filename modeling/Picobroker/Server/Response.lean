import Picobroker.Server.Panics

/-! The RP2040 server responds: a task that does not wait for its client, or for a notification, can
always make a step, and it makes a bounded number of them, whatever the other tasks do. -/
namespace Picobroker
open Rust

variable {T P Q S M B : ℕ}

namespace Rp2040Server

/-- The most steps that it takes to send these packets, with one byte a write. -/
def sendSteps (packets : List (Packet T P)) : ℕ :=
  (packets.map (fun p => p.contents.wire.length+2)).sum+1

/-- The most steps that it takes to send a full batch. -/
def batchSteps (T P Q : ℕ) : ℕ := Q*(maxOutgoing T P+2)+1

namespace Phase

/-- The task waits neither in `socket.accept` nor in a read or in `select3`. -/
def Busy (phase : Phase T P) : Prop := phase ≠ .listening ∧ ¬ phase.AtRead

/-- The most steps that the task can make before it waits again. -/
def steps (S Q : ℕ) : Phase T P → ℕ
  | .listening | .selecting | .reading | .filling _ => 0
  | .registered | .unlisted => 1
  | .accepted | .closing => 2
  | .received _ => S+2+batchSteps T P Q
  | .notifying sessions packets => sessions.length+1+sendSteps packets
  | .woken => 1+batchSteps T P Q
  | .sending packets => sendSteps packets
  | .writing rest packets => rest.length+1+sendSteps packets

/-- No step is left exactly when the task waits. -/
lemma steps_pos_iff (S Q : ℕ) (phase : Phase T P) : 0 < phase.steps S Q ↔ phase.Busy := by
  cases phase <;> simp [steps,Busy,AtRead,sendSteps]

instance (phase : Phase T P) : Decidable phase.Busy := decidable_of_iff _ (steps_pos_iff 0 0 phase)

end Phase

lemma sendSteps_cons (packet : Packet T P) (packets : List (Packet T P)) :
    sendSteps (packet::packets) = packet.contents.wire.length+2+sendSteps packets := by
  rw [sendSteps,sendSteps,List.map_cons,List.sum_cons,Nat.add_assoc]

/-- A batch of packets that can be sent. -/
lemma sendSteps_le {packets : List (Packet T P)} (hlen : packets.length ≤ Q)
    (h : ∀ p ∈ packets, p.Sendable) : sendSteps packets ≤ batchSteps T P Q := by
  have hsum : (packets.map (fun p => p.contents.wire.length+2)).sum ≤
      packets.length*(maxOutgoing T P+2) := by
    refine (List.sum_le_card_nsmul _ (maxOutgoing T P+2) ?_).trans_eq (by simp)
    intro n hn
    obtain ⟨p,hp,rfl⟩ := List.mem_map.mp hn
    exact Nat.add_le_add_right (h p hp).length_le 2
  exact Nat.add_le_add_right (hsum.trans (Nat.mul_le_mul_right _ hlen)) 1

/-- Each step of its own brings the task nearer to the end of the batch. -/
lemma Slot.Steps.steps_lt {cfg : Config} {slot slot' : Slot T P} {action : Action} (S : ℕ)
    (hf : cfg.Suits T P Q) (hs : slot.Steps cfg action slot') (hc : slot.Carries cfg)
    (hbusy : slot.phase.Busy) : slot'.phase.steps S Q < slot.phase.steps S Q := by
  have hpos : ∀ packets : List (Packet T P), 0 < sendSteps packets := fun _ => Nat.succ_pos _
  cases hs with
  | started phase =>
    refine absurd ?_ hbusy.2
    obtain he | he := phase
    · exact .inl he
    · exact .inr (.inl he)
  | filled phase => exact absurd (.inr (.inr ⟨_,phase⟩)) hbusy.2
  | ended phase =>
    refine absurd ?_ hbusy.2
    obtain he | he := phase
    · exact .inl he
    · exact .inr (.inr he)
  | paused phase => exact absurd (.inr (.inl phase)) hbusy.2
  | broken phase => exact absurd phase hbusy.2
  | expired phase => exact absurd (.inl phase) hbusy.2
  | informed phase =>
    rw [phase,Phase.steps,Phase.steps,List.length_nil]
    omega
  | finished phase =>
    rw [phase]
    exact hpos []
  | @encoded packet packets size txBuffer phase encode =>
    obtain ⟨hwf,hfits⟩ := hc.fits hf phase
    rw [Packet.encode_eq hf.topic hf.payload hwf hfits] at encode
    cases encode
    rw [phase,Phase.steps,Phase.steps,List.take_left,sendSteps_cons]
    omega
  | refused phase =>
    rw [phase]
    exact hpos _
  | sent phase =>
    rw [phase,Phase.steps,Phase.steps,List.length_nil]
    omega
  | wrote phase pos le =>
    rw [phase,Phase.steps,Phase.steps,List.length_drop]
    omega
  | dropped phase =>
    rw [phase,Phase.steps,Phase.steps]
    omega

namespace System

variable {cfg : Config} {system system' : System T P Q S M B} {i j : Fin S} {action : Action}
  {hist : List (System T P Q S M B × Event S)}

/-- The steps of the task `i`. -/
def own (i : Fin S) (e : System T P Q S M B × Event S) : Bool :=
  match e.2 with
  | .task j _ => decide (j = i)
  | _ => false

/-- A batch from a queue of the broker. -/
lemma pushed_steps_le (hf : cfg.Suits T P Q) {broker : PicoBroker T P Q S M B}
    (h : broker.Consistent broker.sessions.toMap) (s : ℕ) {packets : List (Packet T P)}
    (hpackets : packets = (broker.tx s).foldl push []) (hsend : ∀ p ∈ packets, p.Sendable) :
    sendSteps packets ≤ batchSteps T P Q := by
  refine sendSteps_le ?_ hsend
  rw [hpackets,foldl_push_tx hf.batch h,h.tx_eq]
  exact (h.shows.tx_length_le s).1

lemma Acts.steps_lt (ha : Acts cfg i system action system') (hf : cfg.Suits T P Q)
    (hb : system.broker.Clean) (hc : (system.slots i).Carries cfg)
    (hbusy : (system.slots i).phase.Busy) :
    (system'.slots i).phase.steps S Q < (system.slots i).phase.steps S Q := by
  have hpackets := (ha.carries hf hb hc).1.packets
  have he := ha.effect hb.consistent
  cases ha with
  | alone steps =>
    rw [put_slots_self]
    exact steps.steps_lt S hf hc hbusy
  | listed phase =>
    rw [put_slots_self,phase]
    exact Nat.one_pos
  | registered phase =>
    rw [setPhase_slots_self,phase]
    exact Nat.one_lt_two
  | refused phase | left phase =>
    rw [setPhase_slots_self,phase]
    exact Nat.succ_pos _
  | unlisted phase =>
    rw [setPhase_slots_self,phase]
    exact Nat.one_lt_two
  | @served currentTime packet sessions packets broker phase call =>
    have hs := hb.consistent.serve (ε := Empty) push (system.slots i).sessionId packet currentTime
    rw [call] at hs
    rw [setPhase_slots_self] at hpackets ⊢
    rw [phase,Phase.steps,Phase.steps]
    cases hs with
    | @done processed _ mem grown tx topics consistent =>
      have hbatch := pushed_steps_le hf grown.consistent _ rfl hpackets
      have hids := (List.length_filter_le (fun id => !(processed.tx id).isEmpty)
        system.broker.sessions.toMap.ids).trans hb.consistent.shows.length_le
      omega
  | failed phase =>
    rw [setPhase_slots_self,phase,Phase.steps,Phase.steps,batchSteps]
    omega
  | notified phase =>
    rw [setPhase_slots_self,phase,Phase.steps,Phase.steps,List.length_cons]
    omega
  | woken phase => exact absurd (.inl phase) hbusy.2
  | @fetched packets broker phase call =>
    rw [setPhase_slots_self] at hpackets he ⊢
    rw [phase] at he ⊢
    cases he with
    | none _ woken => exact absurd rfl woken
    | fetched _ _ _ pushed =>
      have hbatch := pushed_steps_le hf hb.consistent _ pushed hpackets
      rw [Phase.steps,Phase.steps]
      omega

/-- The steps that are left to a busy task, and those that it made since a state of the run. -/
lemma Delivered.steps_next (hd : Delivered cfg hist system) (hf : cfg.Suits T P Q) {event : Event S}
    (hn : system.next cfg event = some system') (hbusy : (system.slots i).phase.Busy) :
    [(system,event)].countP (own i) + (system'.slots i).phase.steps S Q ≤
      (system.slots i).phase.steps S Q := by
  cases steps_of_next hn with
  | @acted j action _ acts =>
    by_cases hij : i = j
    · subst hij
      have hlt := acts.steps_lt hf hd.clean (hd.carries i) hbusy
      have hone : [(system,Event.task i action)].countP (own i) = 1 := by simp [own]
      omega
    · rw [acts.slots_of_ne hij]
      simp [own,Ne.symm hij]
  | cleaned => simp [own]
  | @accepted j ticks stream phase =>
    have hij : i ≠ j := by
      rintro rfl
      exact hbusy.1 phase
    rw [put_slots_of_ne hij]
    simp [own]

lemma steps_of_run (hf : cfg.Suits T P Q) {hist' : List (System T P Q S M B × Event S)}
    (hrun : Run (next cfg) system hist' system') (hr : Run (next cfg) new hist system)
    (hbusy : ∀ e ∈ hist', (e.1.slots i).phase.Busy) :
    hist'.countP (own i) + (system'.slots i).phase.steps S Q ≤ (system.slots i).phase.steps S Q := by
  induction hrun generalizing hist with
  | nil s => rw [List.countP_nil,Nat.zero_add]
  | @cons s t u event hist' head tail ih =>
    have hstep := (delivered_of_run hf hr).steps_next hf head (hbusy _ List.mem_cons_self)
    have hrest := ih (hr.append (.cons head (.nil t)))
      (fun e he => hbusy e (List.mem_cons_of_mem _ he))
    have hcount : ((s,event)::hist').countP (own i) =
        [(s,event)].countP (own i) + hist'.countP (own i) := by
      rw [← List.countP_append,List.singleton_append]
    omega

/-- A busy task is ready for a step that is not a read. -/
lemma exists_ready {slot : Slot T P} (cfg : Config) (hbusy : slot.phase.Busy) :
    ∃ action, slot.Ready cfg action ∧ ∀ n now, action ≠ .read n now := by
  cases phase : slot.phase with
  | listening => exact absurd phase hbusy.1
  | selecting => exact absurd (.inl phase) hbusy.2
  | reading => exact absurd (.inr (.inl phase)) hbusy.2
  | filling totalLen => exact absurd (.inr (.inr ⟨totalLen,phase⟩)) hbusy.2
  | accepted => exact ⟨.register 0,.register phase,by simp⟩
  | registered => exact ⟨.list 0,.list phase,by simp⟩
  | received packet => exact ⟨.serve 0,.serve phase,by simp⟩
  | notifying sessions packets => exact ⟨.notify,.notify phase,by simp⟩
  | woken => exact ⟨.fetch,.fetch phase,by simp⟩
  | sending packets => exact ⟨.send,.send phase,by simp⟩
  | writing rest packets =>
    cases rest with
    | nil => exact ⟨.send,.sent phase,by simp⟩
    | cons byte rest => exact ⟨.write 1,.write phase Nat.one_pos (Nat.succ_pos _),by simp⟩
  | closing => exact ⟨.unlist,.unlist phase,by simp⟩
  | unlisted => exact ⟨.leave,.leave phase,by simp⟩

/-- As long as a task is busy, the steps that it makes count down, whatever the other tasks do, and none
of these holds it up: it always has a next one, which does not panic, if only a write of one byte. A
packet that was read takes it `S+2+Q*(T+P+11)+1` steps at most. -/
theorem responds_within (hf : cfg.Suits T P Q) (hS : S ≤ 65535) (hM : M ≤ 65535) (hB : B ≤ 65535)
    (hr : Run (next cfg) new hist system) {hist' : List (System T P Q S M B × Event S)}
    (hrun : Run (next cfg) system hist' system') (hbusy : ∀ e ∈ hist', (e.1.slots i).phase.Busy) :
    hist'.countP (own i) + (system'.slots i).phase.steps S Q ≤ (system.slots i).phase.steps S Q ∧
    ((system'.slots i).phase.Busy →
      ∃ action system'', system'.next cfg (.task i action) = some system'') := by
  refine ⟨steps_of_run hf hrun hr hbusy,fun hbusy' => ?_⟩
  have hd := delivered_of_run hf (hr.append hrun)
  obtain ⟨action,hready,hread⟩ := exists_ready cfg hbusy'
  refine ⟨action,Option.ne_none_iff_exists'.mp ?_⟩
  exact act_ne_none hf hS hM hB hd.clean.consistent (hd.carries i) hready hread

/-- A client sends PINGREQ, and the task has read it. It answers with two writes of a byte each. -/
def askedEvents : List (Event 1) :=
  arrival onlyTask [0xC0,0x00] ++ [.task onlyTask (.read 2 1)]
def repliedEvents : List (Event 1) :=
  [.task onlyTask (.serve 1),.task onlyTask .notify,.cleanup 2,.task onlyTask .notify,
    .task onlyTask .send,.task onlyTask (.write 1),.task onlyTask (.write 1)]

def asked : System 1 1 1 1 1 1 := (exec (next boardConfig) new askedEvents).get (by decide)
def replied : System 1 1 1 1 1 1 := (exec (next boardConfig) asked repliedEvents).get (by decide)
def repliedTrace : List (System 1 1 1 1 1 1 × Event 1) := trace (next boardConfig) asked repliedEvents

theorem responds_within_ping :
    repliedTrace.countP (own onlyTask) + (replied.slots onlyTask).phase.steps 1 1 ≤
      (asked.slots onlyTask).phase.steps 1 1 ∧
    ((replied.slots onlyTask).phase.Busy →
      ∃ action system, replied.next boardConfig (.task onlyTask action) = some system) :=
  responds_within ⟨by decide,by decide,by decide,by decide,by decide⟩ (by decide) (by decide)
    (by decide) (run_trace (Option.some_get (by decide)).symm)
    (run_trace (Option.some_get (by decide)).symm) (by decide)

end System

end Rp2040Server

end Picobroker
