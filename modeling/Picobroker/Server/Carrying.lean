import Picobroker.Server.Outgoing
import Picobroker.Server.Wakeups

/-! What the tasks of the Tokio server hold: packets that the decoder accepted or the handlers made. The
server drops those whose frames have no room in the buffer that it encodes them into, and no others. -/
namespace Picobroker
open Rust

variable {T P Q S M B F : ℕ}

namespace TokioServer

/-- The limits of the crate. -/
structure Config.Suits (cfg : Config) (T P : ℕ) : Prop where
  word : 32 ≤ cfg.wordBits
  topic : T ≤ 255
  payload : P ≤ 65535

/-- The buffer of `encode_frame` has room for the frame of the packet. -/
def Fits (packet : Packet T P) : Prop := packet.contents.wire.length ≤ 5+P+T

instance (packet : Packet T P) : Decidable (Fits packet) := inferInstanceAs (Decidable (_ ≤ _))

/-- The bytes of the packets that fit, one after the other. -/
def wire (packets : List (Packet T P)) : Bytes :=
  (packets.filter (fun packet => Fits packet)).flatMap (fun packet => packet.contents.wire)

@[simp] lemma wire_nil : wire ([] : List (Packet T P)) = [] := rfl
@[simp] lemma wire_append (packets packets' : List (Packet T P)) :
    wire (packets ++ packets') = wire packets ++ wire packets' := by
  rw [wire,List.filter_append,List.flatMap_append]
  rfl

section Packets

variable {packet : Packet T P} {packets : List (Packet T P)}

lemma wire_cons_of_fits (h : Fits packet) :
    wire (packet::packets) = packet.contents.wire ++ wire packets := by
  rw [wire,List.filter_cons_of_pos (by simpa using h),List.flatMap_cons]
  rfl

lemma wire_cons_of_not_fits (h : ¬ Fits packet) : wire (packet::packets) = wire packets := by
  rw [wire,List.filter_cons_of_neg (by simpa using h)]
  rfl

variable {cfg : Config} (hf : cfg.Suits T P)
include hf

/-- Of what is sent, the server encodes what fits. -/
lemma encodeFrame_eq (h : packet.Sendable) : encodeFrame packet =
    if Fits packet then .ok packet.contents.wire ()
    else .err (.invalidData "Failed to encode packet") () :=
  encodeFrame_cases hf.topic hf.payload h.wellFormed (h.reports _)

/-- Only a PUBLISH is dropped. -/
lemma publish_of_not_fits (h : packet.Sendable) (hn : ¬ Fits packet) :
    ∃ publish, packet = .publish publish ∧ ¬ FitsFrame publish := by
  obtain ⟨publish,rfl⟩ | hshort := h.short
  · refine ⟨publish,rfl,?_⟩
    rw [fitsFrame_iff hf.topic hf.payload h.wellFormed]
    exact hn
  · refine absurd ?_ hn
    rw [Fits]
    omega

end Packets

namespace Phase

/-- Taken out of the queue of the session and not yet in the channel. -/
def inHand : Phase T P → List (Packet T P)
  | .notifying _ packets | .awaiting _ _ _ packets | .sending packets => packets
  | _ => []

/-- The packets of the phase were accepted by the decoder, or can be sent. -/
structure Clean (phase : Phase T P) : Prop where
  received : ∀ packet, phase = .received packet → packet.WellFormed
  packets : ∀ p ∈ phase.inHand, p.Sendable

variable {phase : Phase T P} {packet : Packet T P} {packets : List (Packet T P)} {sessions : List ℕ}

lemma clean_empty (hr : ∀ packet, phase ≠ .received packet) (hp : phase.inHand = []) : phase.Clean := by
  refine ⟨fun packet he => absurd he (hr packet),?_⟩
  rw [hp]
  exact fun p hp => (List.not_mem_nil hp).elim

lemma clean_received (h : packet.WellFormed) : (received packet).Clean := by
  refine ⟨?_,fun p hp => (List.not_mem_nil hp).elim⟩
  rintro _ ⟨⟩
  exact h

lemma clean_notifying (h : ∀ p ∈ packets, p.Sendable) : (notifying sessions packets).Clean :=
  ⟨by rintro _ ⟨⟩,h⟩

lemma clean_awaiting {session target : ℕ} (h : ∀ p ∈ packets, p.Sendable) :
    (awaiting session target sessions packets).Clean := ⟨by rintro _ ⟨⟩,h⟩

lemma clean_sending (h : ∀ p ∈ packets, p.Sendable) : (sending packets).Clean := ⟨by rintro _ ⟨⟩,h⟩

end Phase

/-- What a task does on its own leaves it with such packets only. -/
lemma Handler.Steps.clean {cfg : Config} {h h' : Handler T P F} {action : Action}
    (hs : h.Steps cfg action h') (hf : cfg.Suits T P) (hc : h.phase.Clean) : h'.phase.Clean := by
  cases hs with
  | absorbed | stayed => exact hc
  | received phase read =>
    obtain ⟨frame,decode⟩ := decode_of_readPacket read
    exact Phase.clean_received (Packet.wellFormed_of_decode hf.word hf.topic hf.payload decode)
  | informed phase =>
    have hpackets := hc.packets
    rw [phase] at hpackets
    exact Phase.clean_sending hpackets
  | queued phase | refused phase =>
    have hpackets := hc.packets
    rw [phase] at hpackets
    exact Phase.clean_sending (fun p hp => hpackets p (List.mem_cons_of_mem _ hp))
  | ended | readPanicked | woken | finished | sendPanicked | picked | wrote | flushed | broken
  | expired => exact Phase.clean_empty (by simp) rfl

namespace System

variable {cfg : Config} {system system' : System T P Q S M B F} {i k : ℕ} {h h' : Handler T P F}
  {action : Action}

lemma foldl_push (packets packets' : List (Packet T P)) :
    packets'.foldl push packets = packets ++ packets' := by
  induction packets' generalizing packets with
  | nil => simp
  | cons packet packets' ih => simp [ih,push]

/-- A task whose phase is set, maybe after it got a signal. -/
lemma setPhase_own {system₁ : System T P Q S M B F} {phase : Phase T P}
    (hr : ∃ h₁, system₁.handlers[i]? = some h₁ ∧ h.Receives h₁)
    (hi' : (system₁.setPhase i phase).handlers[i]? = some h') :
    ∃ notify, h' = { h with phase, notify } := by
  obtain ⟨h₁,hi₁,hr⟩ := hr
  obtain ⟨y,hy,he⟩ := update_handler.mp hi'
  rw [hi₁] at hy
  cases hy
  rw [if_pos rfl] at he
  rw [← he,hr.same]
  exact ⟨h₁.notify,rfl⟩

/-- The packets in the queues of the broker and in the hands of the tasks are such packets. -/
structure Clean (system : System T P Q S M B F) : Prop where
  broker : system.broker.Clean
  handlers : ∀ (k : ℕ) (x : Handler T P F), system.handlers[k]? = some x → x.phase.Clean

lemma clean_new : (new : System T P Q S M B F).Clean := by
  refine ⟨PicoBroker.clean_new,?_⟩
  intro k x hx
  cases hx

/-- Whatever a task does, the queues of the broker stay such. -/
lemma Acts.clean_broker (ha : Acts cfg i h system action system') (hf : cfg.Suits T P)
    (hb : system.broker.Clean) (hc : h.phase.Clean) : system'.broker.Clean := by
  cases ha with
  | joined _ call | rejected _ call =>
    have hn := congrArg Outcome.state? call
    exact hb.next (.registerNewSession h.sessionId cfg.defaultKeepAliveSecs _) hn (by simp) (by simp)
  | served phase call | failed phase call =>
    exact PicoBroker.keeps_serve hf.topic hf.payload (hc.received _ phase) push _ _ _ hb _
      (congrArg Outcome.state? call)
  | fetched phase call =>
    exact PicoBroker.keeps_dequeueInto _ _ _ _ _ hb _ (congrArg Outcome.state? call)
  | left => exact hb.next (.removeSession h.sessionId) rfl (by simp) (by simp)
  | notified _ _ signals | resumed _ signals =>
    rw [setPhase_broker,signals.shared.1]
    exact hb
  | _ => exact hb

/-- What a task takes in hand comes out of the queue of its session. -/
lemma Acts.clean_own (ha : Acts cfg i h system action system') (hi : system.handlers[i]? = some h)
    (hi' : system'.handlers[i]? = some h') (hf : cfg.Suits T P) (hb : system.broker.Clean)
    (hc : h.phase.Clean) : h'.phase.Clean := by
  have hself : ∃ h₁, system.handlers[i]? = some h₁ ∧ h.Receives h₁ := ⟨h,hi,.refl h⟩
  have hset : ∀ {system₁ : System T P Q S M B F} {phase : Phase T P},
      (∃ h₁, system₁.handlers[i]? = some h₁ ∧ h.Receives h₁) → phase.Clean →
      (system₁.setPhase i phase).handlers[i]? = some h' → h'.phase.Clean := by
    intro system₁ phase hr hphase hi'
    obtain ⟨notify,rfl⟩ := setPhase_own hr hi'
    exact hphase
  have hpackets := hc.packets
  cases ha with
  | alone step =>
    obtain ⟨y,hy,he⟩ := update_handler.mp hi'
    rw [if_pos rfl] at he
    rw [← he]
    exact step.clean hf hc
  | inserted =>
    obtain ⟨y,hy,he⟩ := update_handler.mp hi'
    rw [if_pos rfl] at he
    rw [← he]
    refine Phase.clean_empty ?_ ?_
    · intro packet
      split_ifs <;> simp
    · dsimp only
      split_ifs <;> rfl
  | @served currentTime packet sessions packets broker phase call =>
    refine hset hself (Phase.clean_notifying ?_) hi'
    have hs := hb.consistent.serve (ε := Empty) push h.sessionId packet currentTime
    rw [call] at hs
    cases hs with
    | done _ _ tx =>
      intro p hp
      rw [foldl_push,List.nil_append,tx] at hp
      obtain hp | hp := List.mem_append.mp hp
      · exact hb.sendable _ p hp
      · exact hb.queuedFor hf.topic hf.payload (hc.received _ phase) _ hp
  | @fetched packets broker phase call =>
    refine hset hself (Phase.clean_sending ?_) hi'
    obtain ⟨b,hd,-⟩ := hb.consistent.dequeueAll (ε := Empty) push h.sessionId
    rw [hd] at call
    cases call
    rw [foldl_push,List.nil_append,hb.tx_eq]
    exact hb.sendable _
  | skipped phase =>
    rw [phase] at hpackets
    exact hset hself (Phase.clean_notifying hpackets) hi'
  | notified phase _ signals =>
    rw [phase] at hpackets
    exact hset (signals.receives hi) (Phase.clean_notifying hpackets) hi'
  | blocked phase =>
    rw [phase] at hpackets
    exact hset hself (Phase.clean_awaiting hpackets) hi'
  | resumed phase signals =>
    rw [phase] at hpackets
    exact hset (signals.receives hi) (Phase.clean_notifying hpackets) hi'
  | announced | joined | rejected | failed | forgot | unannounced | left =>
    exact hset hself (Phase.clean_empty (by simp) rfl) hi'

lemma Clean.next (hc : system.Clean) (hf : cfg.Suits T P) {event : Event}
    (hn : system.next cfg event = some system') : system'.Clean := by
  cases steps_of_next hn with
  | @acted i action h _ handler acts =>
    have hown := hc.handlers i h handler
    refine ⟨acts.clean_broker hf hc.broker hown,fun k x' hx' => ?_⟩
    obtain ⟨x,hx,-,hother,-⟩ := (acts.follows handler).back hx'
    by_cases hk : k = i
    · subst hk
      exact acts.clean_own handler hx' hf hc.broker hown
    · rw [(hother hk).phase]
      exact hc.handlers k x hx
  | cleaned currentTime => exact ⟨hc.broker.cleaned currentTime,hc.handlers⟩
  | accepted secs chunks =>
    refine ⟨hc.broker,fun k x hx => ?_⟩
    rw [List.getElem?_append] at hx
    split_ifs at hx
    · exact hc.handlers k x hx
    · rw [List.mem_singleton.mp (List.mem_of_getElem? hx)]
      exact Phase.clean_empty (by simp [Handler.new]) rfl

end System

end TokioServer

end Picobroker
