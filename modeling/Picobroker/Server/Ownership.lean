import Picobroker.Server.Tokio

/-! Who owns what in the Tokio server: every session, every connection and every notification sender
belongs to one task, and what a task that ended leaves behind. -/
namespace Picobroker
open Rust

variable {T P Q S M B F : ℕ}

namespace TokioServer

namespace Phase

/-- Inside the loop. -/
def Looping : Phase T P → Prop
  | .selecting | .received _ | .notifying _ _ | .awaiting _ _ _ _ | .woken | .sending _
  | .writing _ => True
  | _ => False

/-- The task has registered its session and not removed it again. -/
def Registered : Phase T P → Prop
  | .starting | .announced | .closed | .rejected => False
  | _ => True

/-- The task has stored its connection and not removed it again. -/
def Connected : Phase T P → Prop
  | .starting | .announced | .joined | .forgotten | .unannounced | .closed | .rejected => False
  | _ => True

/-- The task has registered its notification sender and not removed it again. -/
def Announced : Phase T P → Prop
  | .starting | .unannounced | .closed => False
  | _ => True

/-- The changes of phase. A task that is turned away or panics keeps what it has announced. -/
inductive Moves : Phase T P → Action → Phase T P → Prop
  | loops {phase phase' : Phase T P} {action : Action} (from' : phase.Looping)
      (to' : phase'.Looping ∨ phase' = .closing ∨ phase' = .panicked) : Moves phase action phase'
  | announced : Moves .starting .announce .announced
  | joined (currentTime : ℕ) : Moves .announced (.register currentTime) .joined
  | rejected (currentTime : ℕ) : Moves .announced (.register currentTime) .rejected
  | inserted {phase' : Phase T P} (now : ℕ) (to' : phase' = .selecting ∨ phase' = .panicked) :
      Moves .joined (.insert now) phase'
  | forgot : Moves .closing .forget .forgotten
  | unannounced : Moves .forgotten .unannounce .unannounced
  | left : Moves .unannounced .leave .closed

section Moves

variable {phase phase' : Phase T P} {action : Action}

lemma Looping.registered (h : phase.Looping) : phase.Registered := by cases phase <;> trivial
lemma Looping.connected (h : phase.Looping) : phase.Connected := by cases phase <;> trivial
lemma Looping.announced (h : phase.Looping) : phase.Announced := by cases phase <;> trivial

lemma Moves.registered (hm : phase.Moves action phase') (h : phase.Registered)
    (hne : phase ≠ .unannounced) : phase'.Registered := by
  cases hm with
  | loops _ to' =>
    obtain hl | rfl | rfl := to'
    · exact hl.registered
    · trivial
    · trivial
  | inserted _ to' => obtain rfl | rfl := to' <;> trivial
  | announced => exact h.elim
  | joined => exact h.elim
  | rejected => exact h.elim
  | left => exact absurd rfl hne
  | _ => trivial

lemma Moves.connected (hm : phase.Moves action phase')
    (h : phase.Connected ∧ phase ≠ .closing ∨ phase = .joined) : phase'.Connected := by
  cases hm with
  | loops _ to' =>
    obtain hl | rfl | rfl := to'
    · exact hl.connected
    · trivial
    · trivial
  | inserted _ to' => obtain rfl | rfl := to' <;> trivial
  | forgot =>
    obtain h | h := h
    · exact absurd rfl h.2
    · cases h
  | _ =>
    obtain h | h := h
    · exact h.1.elim
    · cases h

/-- Only two steps concern the notification sender. -/
lemma Moves.announced_iff (hm : phase.Moves action phase') (hs : phase ≠ .starting)
    (hf : phase ≠ .forgotten) : phase'.Announced ↔ phase.Announced := by
  cases hm with
  | loops from' to' =>
    refine iff_of_true ?_ from'.announced
    obtain hl | rfl | rfl := to'
    · exact hl.announced
    · trivial
    · trivial
  | announced => exact absurd rfl hs
  | unannounced => exact absurd rfl hf
  | inserted _ to' => obtain rfl | rfl := to' <;> exact Iff.rfl
  | _ => exact Iff.rfl

end Moves

end Phase

namespace Handler

variable {cfg : Config} {h h' : Handler T P F} {action : Action}

/-- A step of its own leads a task around the loop or out of it. -/
lemma Steps.moves (hs : h.Steps cfg action h') :
    h'.sessionId = h.sessionId ∧ h.phase.Looping ∧
      (h'.phase.Looping ∨ h'.phase = .closing ∨ h'.phase = .panicked) := by
  cases hs with
  | absorbed phase | stayed phase => rw [phase]; exact ⟨rfl,trivial,.inl trivial⟩
  | ended phase | expired phase | broken phase => rw [phase]; exact ⟨rfl,trivial,.inr (.inl rfl)⟩
  | readPanicked phase | sendPanicked phase => rw [phase]; exact ⟨rfl,trivial,.inr (.inr rfl)⟩
  | received phase | informed phase | woken phase | finished phase | queued phase | refused phase
  | picked phase | wrote phase | flushed phase =>
    rw [phase]
    exact ⟨rfl,trivial,.inl trivial⟩

/-- What another task can do to this one: send it signals. -/
structure Receives (h h' : Handler T P F) : Prop where
  same : h' = { h with notify := h'.notify }
  signals : h.notify.items <+: h'.notify.items

lemma Receives.refl (h : Handler T P F) : h.Receives h := ⟨rfl,List.prefix_rfl⟩

lemma Receives.phase (hr : h.Receives h') : h'.phase = h.phase := by rw [hr.same]
lemma Receives.sessionId (hr : h.Receives h') : h'.sessionId = h.sessionId := by rw [hr.same]

end Handler

namespace System

variable {cfg : Config} {system system' : System T P Q S M B F} {i k target : ℕ}
  {h x : Handler T P F} {action : Action}

lemma Signals.receives (hs : Signals target system system') (hx : system.handlers[k]? = some x) :
    ∃ x', system'.handlers[k]? = some x' ∧ x.Receives x' := by
  cases hs with
  | gone => exact ⟨x,hx,.refl x⟩
  | @queued t notify receiver _ items =>
    refine ⟨_,update_handler.mpr ⟨x,hx,rfl⟩,?_⟩
    by_cases hk : target = k
    · subst hk
      rw [receiver] at hx
      cases hx
      rw [if_pos rfl]
      exact ⟨rfl,by rw [items]; exact List.prefix_append _ _⟩
    · rw [if_neg hk]
      exact .refl x

lemma Signals.shared (hs : Signals target system system') :
    system'.broker = system.broker ∧ system'.connections = system.connections ∧
      system'.notificationSenders = system.notificationSenders ∧
      system'.sessionIdGen = system.sessionIdGen ∧
      system'.handlers.length = system.handlers.length := by
  cases hs with
  | gone => exact ⟨rfl,rfl,rfl,rfl,rfl⟩
  | queued => exact ⟨rfl,rfl,rfl,rfl,List.length_modify _ _ _⟩

/-- The tasks after a step of one of them. -/
structure Follows (i : ℕ) (action : Action) (handlers handlers' : List (Handler T P F)) : Prop where
  length : handlers'.length = handlers.length
  other : ∀ k x, k ≠ i → handlers[k]? = some x → ∃ x', handlers'[k]? = some x' ∧ x.Receives x'
  self : ∀ x, handlers[i]? = some x →
    ∃ x', handlers'[i]? = some x' ∧ x'.sessionId = x.sessionId ∧ x.phase.Moves action x'.phase

/-- A step that changes only its own task. -/
lemma follows_modify {handlers : List (Handler T P F)} {f : Handler T P F → Handler T P F}
    (hi : handlers[i]? = some h) (hid : (f h).sessionId = h.sessionId)
    (hmoves : h.phase.Moves action (f h).phase) : Follows i action handlers (handlers.modify i f) := by
  refine ⟨List.length_modify _ _ _,?_,?_⟩
  · intro k x hk hx
    refine ⟨x,?_,.refl x⟩
    rw [List.getElem?_modify,hx]
    simp [Ne.symm hk]
  · intro x hx
    rw [hi] at hx
    cases hx
    refine ⟨f h,?_,hid,hmoves⟩
    rw [List.getElem?_modify,hi]
    simp

/-- A step that sends a signal first. -/
lemma Signals.follows (hs : Signals target system system') (hi : system.handlers[i]? = some h)
    {phase : Phase T P} (hmoves : h.phase.Moves action phase) :
    Follows i action system.handlers (system'.setPhase i phase).handlers := by
  obtain ⟨h',hi',hr⟩ := hs.receives hi
  have hown : Follows i action system'.handlers (system'.setPhase i phase).handlers :=
    follows_modify hi' rfl (by rw [hr.phase]; exact hmoves)
  refine ⟨hown.length.trans hs.shared.2.2.2.2,?_,?_⟩
  · intro k x hk hx
    obtain ⟨x',hx',hrx⟩ := hs.receives hx
    obtain ⟨x'',hx'',hrx'⟩ := hown.other k x' hk hx'
    refine ⟨x'',hx'',?_,hrx.signals.trans hrx'.signals⟩
    rw [hrx'.same,hrx.same]
  · intro x hx
    rw [hi] at hx
    cases hx
    obtain ⟨h'',hi'',hid,hm⟩ := hown.self h' hi'
    rw [hr.phase] at hm
    exact ⟨h'',hi'',hid.trans hr.sessionId,hm⟩

lemma Acts.follows (ha : Acts cfg i h system action system') (hi : system.handlers[i]? = some h) :
    Follows i action system.handlers system'.handlers := by
  have hloop : ∀ {phase phase' : Phase T P} {action : Action}, h.phase = phase → phase.Looping →
      phase'.Looping → h.phase.Moves action phase' :=
    fun he hl hl' => .loops (he ▸ hl) (.inl hl')
  cases ha with
  | alone step =>
    obtain ⟨hid,hl,hl'⟩ := step.moves
    exact follows_modify hi hid (.loops hl hl')
  | announced phase => exact follows_modify hi rfl (by rw [phase]; exact .announced)
  | joined phase => exact follows_modify hi rfl (by rw [phase]; exact .joined _)
  | rejected phase => exact follows_modify hi rfl (by rw [phase]; exact .rejected _)
  | inserted phase =>
    refine follows_modify hi rfl ?_
    rw [phase]
    refine .inserted _ ?_
    split_ifs
    · exact .inr rfl
    · exact .inl rfl
  | served phase => exact follows_modify hi rfl (hloop phase trivial trivial)
  | failed phase => exact follows_modify hi rfl (hloop phase trivial trivial)
  | skipped phase => exact follows_modify hi rfl (hloop phase trivial trivial)
  | notified phase _ signals => exact signals.follows hi (hloop phase trivial trivial)
  | blocked phase => exact follows_modify hi rfl (hloop phase trivial trivial)
  | resumed phase signals => exact signals.follows hi (hloop phase trivial trivial)
  | fetched phase => exact follows_modify hi rfl (hloop phase trivial trivial)
  | forgot phase => exact follows_modify hi rfl (by rw [phase]; exact .forgot)
  | unannounced phase => exact follows_modify hi rfl (by rw [phase]; exact .unannounced)
  | left phase => exact follows_modify hi rfl (by rw [phase]; exact .left)

/-! ### Sessions, connections and their tasks -/

/-- A task in one of these phases works for the session. -/
def Has (p : Phase T P → Prop) (s : ℕ) (handlers : List (Handler T P F)) : Prop :=
  ∃ (k : ℕ) (x : Handler T P F), handlers[k]? = some x ∧ x.sessionId = s ∧ p x.phase

lemma Follows.has {handlers handlers' : List (Handler T P F)} {p : Phase T P → Prop} {s : ℕ}
    (hf : Follows i action handlers handlers') (hi : handlers[i]? = some h)
    (hkeep : h.sessionId = s → p h.phase → ∀ phase, h.phase.Moves action phase → p phase)
    (hs : Has p s handlers) : Has p s handlers' := by
  obtain ⟨k,x,hx,hid,hp⟩ := hs
  by_cases hk : k = i
  · subst hk
    rw [hi] at hx
    cases hx
    obtain ⟨x',hx',hid',hmoves⟩ := hf.self h hi
    exact ⟨k,x',hx',hid'.trans hid,hkeep hid hp _ hmoves⟩
  · obtain ⟨x',hx',hr⟩ := hf.other k x hk hx
    exact ⟨k,x',hx',hr.sessionId.trans hid,hr.phase ▸ hp⟩

/-- Whatever a task does, the broker was changed by public calls only. -/
lemma Acts.reachable (ha : Acts cfg i h system action system') :
    Reachable PicoBroker.next system.broker system'.broker := by
  have hrefl : Reachable PicoBroker.next system.broker system.broker := .refl _ _
  cases ha with
  | @joined currentTime broker _ call =>
    refine hrefl.step (a := .registerNewSession h.sessionId cfg.defaultKeepAliveSecs currentTime) ?_
    exact congrArg Outcome.state? call
  | @rejected currentTime error broker _ call =>
    refine hrefl.step (a := .registerNewSession h.sessionId cfg.defaultKeepAliveSecs currentTime) ?_
    exact congrArg Outcome.state? call
  | served _ call => exact PicoBroker.calls_serve _ _ _ _ _ _ (congrArg Outcome.state? call)
  | failed _ call => exact PicoBroker.calls_serve _ _ _ _ _ _ (congrArg Outcome.state? call)
  | fetched _ call => exact PicoBroker.calls_dequeueInto _ _ _ _ _ _ (congrArg Outcome.state? call)
  | left => exact hrefl.step (a := .removeSession h.sessionId) rfl
  | notified _ _ signals => exact signals.shared.1.symm ▸ hrefl
  | resumed _ signals => exact signals.shared.1.symm ▸ hrefl
  | _ => exact hrefl

section Broker

variable (hc : system.broker.Consistent system.broker.sessions.toMap)
include hc

/-- A task registers and removes no session but its own. -/
lemma Acts.mem_ids (ha : Acts cfg i h system action system') {t : ℕ} (ht : t ≠ h.sessionId) :
    t ∈ system'.broker.sessions.toMap.ids ↔ t ∈ system.broker.sessions.toMap.ids := by
  cases ha with
  | @joined currentTime broker _ call =>
    obtain ⟨e,hr⟩ | ⟨why,hr⟩ | ⟨b,hr,-,-,hb⟩ :=
      hc.registerNewSession h.sessionId cfg.defaultKeepAliveSecs currentTime
    · rw [hr] at call; cases call
    · rw [hr] at call; cases call
    · rw [hr] at call
      cases call
      rw [setPhase_broker,hb.toMap_eq,SessionMap.add_ids,List.mem_append,List.mem_singleton]
      exact or_iff_left ht
  | @rejected currentTime error broker _ call =>
    obtain ⟨e,hr⟩ | ⟨why,hr⟩ | ⟨b,hr,-⟩ :=
      hc.registerNewSession h.sessionId cfg.defaultKeepAliveSecs currentTime
    · rw [hr] at call; cases call; rfl
    · rw [hr] at call; cases call
    · rw [hr] at call; cases call
  | @served currentTime packet sessions packets broker _ call =>
    have hs := hc.serve (ε := Empty) push h.sessionId packet currentTime
    rw [call] at hs
    cases hs with
    | done _ grown _ _ consistent =>
      rw [setPhase_broker,consistent.toMap_eq,SessionMap.setTx_ids,grown.ids]
  | @failed currentTime packet error broker _ call =>
    have hs := hc.serve (ε := Empty) push h.sessionId packet currentTime
    rw [call] at hs
    cases hs with
    | absent => rfl
    | failed _ grown => rw [setPhase_broker,grown.ids]
  | @fetched packets broker _ call =>
    obtain ⟨b,hd,-,hb,-⟩ := hc.dequeueAll (ε := Empty) push h.sessionId
    rw [hd] at call
    cases call
    rw [setPhase_broker,hb.toMap_eq,SessionMap.setTx_ids]
  | left =>
    rw [setPhase_broker,(hc.removeSession h.sessionId).toMap_eq,SessionMap.remove_ids,List.mem_filter,
      bne_iff_ne]
    exact and_iff_left ht
  | notified _ _ signals => rw [setPhase_broker,signals.shared.1]
  | resumed _ signals => rw [setPhase_broker,signals.shared.1]
  | _ => rfl

/-- The own session is registered afterwards when it was, or when the step registered it. -/
lemma Acts.mem_own (ha : Acts cfg i h system action system')
    (hs : h.sessionId ∈ system'.broker.sessions.toMap.ids) :
    (h.sessionId ∈ system.broker.sessions.toMap.ids ∧ h.phase ≠ .unannounced) ∨
      h.phase = .announced ∧ ∃ currentTime broker, system' = setPhase i .joined { system with broker } ∧
        system.broker.registerNewSession h.sessionId cfg.defaultKeepAliveSecs currentTime =
          .ok () broker := by
  cases ha with
  | joined phase call => exact .inr ⟨phase,_,_,rfl,call⟩
  | @rejected currentTime error broker phase call =>
    obtain ⟨e,hr⟩ | ⟨why,hr⟩ | ⟨b,hr,-⟩ :=
      hc.registerNewSession h.sessionId cfg.defaultKeepAliveSecs currentTime
    · rw [hr] at call
      cases call
      exact .inl ⟨hs,by simp [phase]⟩
    · rw [hr] at call; cases call
    · rw [hr] at call; cases call
  | alone step =>
    refine .inl ⟨hs,?_⟩
    intro he
    have hl := step.moves.2.1
    rw [he] at hl
    exact hl
  | @served currentTime packet sessions packets broker phase call =>
    have hserve := hc.serve (ε := Empty) push h.sessionId packet currentTime
    rw [call] at hserve
    cases hserve with
    | done mem => exact .inl ⟨mem,by simp [phase]⟩
  | @failed currentTime packet error broker phase call =>
    have hserve := hc.serve (ε := Empty) push h.sessionId packet currentTime
    rw [call] at hserve
    cases hserve with
    | absent => exact .inl ⟨hs,by simp [phase]⟩
    | failed mem => exact .inl ⟨mem,by simp [phase]⟩
  | @fetched packets broker phase call =>
    obtain ⟨b,hd,-,hb,-⟩ := hc.dequeueAll (ε := Empty) push h.sessionId
    rw [hd] at call
    cases call
    rw [setPhase_broker,hb.toMap_eq,SessionMap.setTx_ids] at hs
    exact .inl ⟨hs,by simp [phase]⟩
  | left =>
    rw [setPhase_broker,(hc.removeSession h.sessionId).toMap_eq,SessionMap.remove_ids,List.mem_filter]
      at hs
    simp at hs
  | notified phase _ signals =>
    rw [setPhase_broker,signals.shared.1] at hs
    exact .inl ⟨hs,by simp [phase]⟩
  | resumed phase signals =>
    rw [setPhase_broker,signals.shared.1] at hs
    exact .inl ⟨hs,by simp [phase]⟩
  | announced phase | inserted phase | skipped phase | blocked phase | forgot phase
  | unannounced phase => exact .inl ⟨hs,by simp [phase]⟩

end Broker

/-- A connection is stored by its own task, after its session was registered. -/
lemma Acts.mem_connections (ha : Acts cfg i h system action system') {s : ℕ}
    (hs : s ∈ system'.connections) :
    (s ∈ system.connections ∧ (s = h.sessionId → h.phase ≠ .closing)) ∨
      s = h.sessionId ∧ h.phase = .joined := by
  cases ha with
  | inserted phase =>
    obtain rfl | hs := Finset.mem_insert.mp hs
    · exact .inr ⟨rfl,phase⟩
    · exact .inl ⟨hs,fun _ => by simp [phase]⟩
  | forgot phase =>
    obtain ⟨hne,hs⟩ := Finset.mem_erase.mp hs
    exact .inl ⟨hs,fun he => absurd he hne⟩
  | alone step =>
    refine .inl ⟨hs,fun _ he => ?_⟩
    have hl := step.moves.2.1
    rw [he] at hl
    exact hl
  | notified phase _ signals =>
    rw [setPhase_connections,signals.shared.2.1] at hs
    exact .inl ⟨hs,fun _ => by simp [phase]⟩
  | resumed phase signals =>
    rw [setPhase_connections,signals.shared.2.1] at hs
    exact .inl ⟨hs,fun _ => by simp [phase]⟩
  | announced phase | joined phase | rejected phase | served phase | failed phase | skipped phase
  | blocked phase | fetched phase | unannounced phase | left phase =>
    exact .inl ⟨hs,fun _ => by simp [phase]⟩

lemma Acts.sessionIdGen (ha : Acts cfg i h system action system') :
    system'.sessionIdGen = system.sessionIdGen := by
  cases ha with
  | notified _ _ signals => exact signals.shared.2.2.2.1
  | resumed _ signals => exact signals.shared.2.2.2.1
  | _ => rfl

/-- The step that registers the sender, the one that removes it, and all others. -/
lemma Acts.senders (ha : Acts cfg i h system action system') :
    (h.phase = .starting ∧ system'.notificationSenders =
      Function.update system.notificationSenders h.sessionId (some i)) ∨
    (h.phase = .forgotten ∧ system'.notificationSenders =
      Function.update system.notificationSenders h.sessionId none) ∨
    (h.phase ≠ .starting ∧ h.phase ≠ .forgotten ∧
      system'.notificationSenders = system.notificationSenders) := by
  cases ha with
  | announced phase => exact .inl ⟨phase,rfl⟩
  | unannounced phase => exact .inr (.inl ⟨phase,rfl⟩)
  | alone step =>
    have hl := step.moves.2.1
    refine .inr (.inr ⟨?_,?_,rfl⟩)
    · intro he
      rw [he] at hl
      exact hl
    · intro he
      rw [he] at hl
      exact hl
  | notified phase _ signals =>
    exact .inr (.inr ⟨by simp [phase],by simp [phase],signals.shared.2.2.1⟩)
  | resumed phase signals =>
    exact .inr (.inr ⟨by simp [phase],by simp [phase],signals.shared.2.2.1⟩)
  | joined phase | rejected phase | inserted phase | served phase | failed phase | skipped phase
  | blocked phase | fetched phase | forgot phase | left phase =>
    exact .inr (.inr ⟨by simp [phase],by simp [phase],rfl⟩)

/-- A task after the step, and what it was before. -/
lemma Follows.back {handlers handlers' : List (Handler T P F)}
    (hf : Follows i action handlers handlers') {x' : Handler T P F} (hx : handlers'[k]? = some x') :
    ∃ x, handlers[k]? = some x ∧ x'.sessionId = x.sessionId ∧ (k ≠ i → x.Receives x') ∧
      (k = i → x.phase.Moves action x'.phase) := by
  have hk : k < handlers.length := by
    rw [← hf.length]
    exact (List.getElem?_eq_some_iff.mp hx).1
  have hold : handlers[k]? = some handlers[k] := List.getElem?_eq_getElem hk
  by_cases hki : k = i
  · subst hki
    obtain ⟨y,hy,hid,hmoves⟩ := hf.self _ hold
    rw [hx] at hy
    cases hy
    exact ⟨_,hold,hid,fun hne => absurd rfl hne,fun _ => hmoves⟩
  · obtain ⟨y,hy,hr⟩ := hf.other k _ hki hold
    rw [hx] at hy
    cases hy
    exact ⟨_,hold,hr.sessionId,fun _ => hr,fun he => absurd he hki⟩

/-- What holds in every state: the broker is one that the public operations reach, the ids are those of
the generator in order, and sessions and connections belong to tasks. -/
structure Owned (system : System T P Q S M B F) : Prop where
  broker : Reachable PicoBroker.next .new system.broker
  generator : system.sessionIdGen = IdGenerator.new.advance system.handlers.length
  numbered : ∀ k x, system.handlers[k]? = some x →
    ∃ secs, x.sessionId = IdGenerator.idOf secs (IdGenerator.new.advance k).counter
  sessions : ∀ s ∈ system.broker.sessions.ids, Has Phase.Registered s system.handlers
  connections : ∀ s ∈ system.connections, Has Phase.Connected s system.handlers

lemma owned_new : Owned (new : System T P Q S M B F) := by
  refine ⟨.refl _ _,rfl,?_,?_,?_⟩
  · intro k x hx
    cases hx
  · intro s hs
    cases hs
  · intro s hs
    exact absurd hs (Finset.notMem_empty s)

lemma Owned.consistent (ho : system.Owned) :
    system.broker.Consistent system.broker.sessions.toMap :=
  PicoBroker.consistent_of_reachable ho.broker

/-- A task that the step moved. -/
lemma Follows.has_self {handlers handlers' : List (Handler T P F)} {p : Phase T P → Prop}
    (hf : Follows i action handlers handlers') (hi : handlers[i]? = some h)
    (hp : ∀ phase, h.phase.Moves action phase → p phase) : Has p h.sessionId handlers' := by
  obtain ⟨x,hx,hid,hmoves⟩ := hf.self h hi
  exact ⟨i,x,hx,hid,hp _ hmoves⟩

lemma Owned.acts (ho : system.Owned) (hi : system.handlers[i]? = some h)
    (ha : Acts cfg i h system action system') : system'.Owned := by
  have hf := ha.follows hi
  refine ⟨?_,?_,?_,?_,?_⟩
  · obtain ⟨hist,hrun⟩ := ha.reachable
    exact ho.broker.run hrun
  · rw [ha.sessionIdGen,ho.generator,hf.length]
  · intro k x hx
    obtain ⟨y,hy,hid,-⟩ := hf.back hx
    rw [hid]
    exact ho.numbered k y hy
  · intro s hs
    by_cases hne : s = h.sessionId
    · subst hne
      obtain ⟨hmem,hphase⟩ | ⟨hphase,currentTime,broker,rfl,-⟩ := ha.mem_own ho.consistent hs
      · exact hf.has hi (fun _ hp _ hm => hm.registered hp hphase) (ho.sessions _ hmem)
      · exact ⟨i,{ h with phase := .joined },update_handler.mpr ⟨h,hi,if_pos rfl⟩,rfl,trivial⟩
    · have hmem := (ha.mem_ids ho.consistent hne).mp hs
      exact hf.has hi (fun he => absurd he.symm hne) (ho.sessions _ hmem)
  · intro s hs
    obtain ⟨hmem,hphase⟩ | ⟨rfl,hphase⟩ := ha.mem_connections hs
    · exact hf.has hi (fun he hp _ hm => hm.connected (.inl ⟨hp,hphase he.symm⟩))
        (ho.connections s hmem)
    · exact hf.has_self hi (fun _ hm => hm.connected (.inr hphase))

lemma has_append {handlers handlers' : List (Handler T P F)} {p : Phase T P → Prop} {s : ℕ}
    (hs : Has p s handlers) : Has p s (handlers ++ handlers') := by
  obtain ⟨k,x,hx,hid,hp⟩ := hs
  refine ⟨k,x,?_,hid,hp⟩
  rw [List.getElem?_append_left (List.getElem?_eq_some_iff.mp hx).1]
  exact hx

lemma Owned.next (ho : system.Owned) {event : Event} (hn : system.next cfg event = some system') :
    system'.Owned := by
  cases steps_of_next hn with
  | acted handler acts => exact ho.acts handler acts
  | accepted secs chunks =>
    have hgen : generate secs system.sessionIdGen =
        (IdGenerator.idOf secs (IdGenerator.new.advance system.handlers.length).counter,
          IdGenerator.new.advance (system.handlers.length+1)) := by
      rw [ho.generator]
      exact IdGenerator.generateAt_advance secs _ _
    refine ⟨ho.broker,?_,?_,fun s hs => has_append (ho.sessions s hs),
      fun s hs => has_append (ho.connections s hs)⟩
    · rw [List.length_append,List.length_singleton]
      exact congrArg Prod.snd hgen
    · intro k x hx
      rw [List.getElem?_append] at hx
      split_ifs at hx with hk
      · exact ho.numbered k x hx
      · obtain ⟨hlt,rfl⟩ := List.getElem?_eq_some_iff.mp hx
        rw [List.length_singleton] at hlt
        obtain rfl : k = system.handlers.length := by omega
        refine ⟨secs,?_⟩
        simp only [Nat.sub_self,List.getElem_singleton]
        exact congrArg Prod.fst hgen
  | cleaned currentTime =>
    have hc := ho.consistent
    obtain ⟨hist,hrun⟩ := PicoBroker.reachable_cleaned currentTime system.broker
    refine ⟨ho.broker.run hrun,ho.generator,ho.numbered,?_,?_⟩
    · intro s hs
      obtain ⟨session,hsession,rfl,-⟩ := (hc.ids_cleaned currentTime s).mp hs
      exact ho.sessions _ (List.mem_map_of_mem hsession)
    · intro s hs
      exact ho.connections s ((hc.connections_cleaned currentTime system.connections s).mp hs).1

lemma owned_of_reachable (hr : Reachable (next cfg) new system) : system.Owned :=
  hr.invariant (I := Owned) (fun _ _ _ ho hn => ho.next hn) owned_new

/-- As long as the counter tells the connections apart, no two tasks have the same id. -/
lemma Owned.distinct (ho : system.Owned) (hlen : system.handlers.length ≤ 2^32) {j : ℕ}
    {y : Handler T P F} (hx : system.handlers[k]? = some x) (hy : system.handlers[j]? = some y)
    (he : x.sessionId = y.sessionId) : k = j := by
  obtain ⟨secs,hx'⟩ := ho.numbered k x hx
  obtain ⟨secs',hy'⟩ := ho.numbered j y hy
  have hk := (List.getElem?_eq_some_iff.mp hx).1
  have hj := (List.getElem?_eq_some_iff.mp hy).1
  have hmod := congrArg (· % 2^32) he
  simp only [hx',hy',IdGenerator.idOf_mod,IdGenerator.counter_advance] at hmod
  have hzero : (IdGenerator.new.counter).toNat = 0 := rfl
  omega

/-- Nothing is stored: no session, no filter, no connection. -/
def Idle (system : System T P Q S M B F) : Prop :=
  system.broker.sessions.ids = [] ∧ system.broker.topics.topics.asSlice = [] ∧
    system.connections = ∅

lemma Owned.idle (ho : system.Owned)
    (hover : ∀ x ∈ system.handlers, x.phase = .closed ∨ x.phase = .rejected) : system.Idle := by
  have hids : system.broker.sessions.ids = [] := by
    rw [List.eq_nil_iff_forall_not_mem]
    intro s hs
    obtain ⟨k,x,hx,-,hp⟩ := ho.sessions s hs
    obtain he | he := hover x (List.mem_of_getElem? hx)
    · rw [he] at hp
      exact hp
    · rw [he] at hp
      exact hp
  refine ⟨hids,?_,?_⟩
  · have hc := ho.consistent
    rw [List.eq_nil_iff_forall_not_mem]
    intro entry hentry
    obtain ⟨s,hs⟩ := List.exists_mem_of_ne_nil _ (hc.topics.nonempty entry hentry)
    have hmem : s ∈ system.broker.sessions.ids := hc.registered entry hentry s hs
    rw [hids] at hmem
    cases hmem
  · rw [Finset.eq_empty_iff_forall_notMem]
    intro s hs
    obtain ⟨k,x,hx,-,hp⟩ := ho.connections s hs
    obtain he | he := hover x (List.mem_of_getElem? hx)
    · rw [he] at hp
      exact hp
    · rw [he] at hp
      exact hp

/-- Whatever the order in which the tasks run: every session and every stored connection belongs to a
task that will remove it, to exactly one as long as the counter of the ids tells the tasks apart. When
all tasks have returned, nothing is left. -/
theorem sessions_owned (hr : Reachable (next cfg) new system) :
    (∀ s ∈ system.broker.sessions.ids, Has Phase.Registered s system.handlers) ∧
    (∀ s ∈ system.connections, Has Phase.Connected s system.handlers) ∧
    (system.handlers.length ≤ 2^32 → (system.handlers.map (·.sessionId)).Nodup) ∧
    ((∀ x ∈ system.handlers, x.phase = .closed ∨ x.phase = .rejected) → system.Idle) := by
  have ho := owned_of_reachable hr
  refine ⟨ho.sessions,ho.connections,?_,ho.idle⟩
  intro hlen
  rw [List.nodup_iff_injective_getElem]
  intro ⟨j,hj⟩ ⟨k,hk⟩ he
  rw [List.length_map] at hj hk
  simp only [List.getElem_map] at he
  rw [Fin.mk.injEq]
  exact ho.distinct hlen (List.getElem?_eq_getElem hj) (List.getElem?_eq_getElem hk) he

/-- A client sends its bytes in these chunks, and its task reaches the loop. -/
def arrival (i : ℕ) (chunks : List Bytes) : List Event :=
  [.accept 5 chunks,.task i .announce,.task i (.register 0),.task i (.insert 0)]

def hostConfig : Config := ⟨60,64,id⟩

/-- There is room for one session. The second client is turned away, and the first one leaves. -/
def visitEvents : List Event :=
  arrival 0 [] ++ [.accept 5 [],.task 1 .announce,.task 1 (.register 0),.task 0 (.read 1),
    .task 0 .forget,.task 0 .unannounce,.task 0 .leave]

def visit : System 1 1 1 1 1 1 1 := (exec (next hostConfig) new visitEvents).get (by decide)

lemma visit_reachable : Reachable (next hostConfig) new visit :=
  reachable_of_exec (Option.some_get (by decide)).symm

theorem sessions_owned_visit :
    (∀ s ∈ visit.broker.sessions.ids, Has Phase.Registered s visit.handlers) ∧
    (∀ s ∈ visit.connections, Has Phase.Connected s visit.handlers) ∧
    (visit.handlers.length ≤ 2^32 → (visit.handlers.map (·.sessionId)).Nodup) ∧
    ((∀ x ∈ visit.handlers, x.phase = .closed ∨ x.phase = .rejected) → visit.Idle) :=
  sessions_owned visit_reachable

/-! ### The map of notification senders -/

/-- The map of senders holds the senders of these tasks and no others. -/
def SendersExact (system : System T P Q S M B F) : Prop :=
  ∀ s j, system.notificationSenders s = some j ↔
    ∃ x, system.handlers[j]? = some x ∧ x.sessionId = s ∧ x.phase.Announced

/-- Whether a task of another session has announced itself does not change. -/
lemma Follows.announced_of_ne {handlers handlers' : List (Handler T P F)} {s j : ℕ}
    (hf : Follows i action handlers handlers') (hi : handlers[i]? = some h) (hs : s ≠ h.sessionId) :
    (∃ x, handlers'[j]? = some x ∧ x.sessionId = s ∧ x.phase.Announced) ↔
      ∃ x, handlers[j]? = some x ∧ x.sessionId = s ∧ x.phase.Announced := by
  constructor
  · rintro ⟨x',hx',rfl,hp⟩
    obtain ⟨x,hx,hid,hother,-⟩ := hf.back hx'
    have hj : j ≠ i := by
      rintro rfl
      rw [hi] at hx
      cases hx
      exact hs hid
    exact ⟨x,hx,hid.symm,(hother hj).phase ▸ hp⟩
  · rintro ⟨x,hx,rfl,hp⟩
    have hj : j ≠ i := by
      rintro rfl
      rw [hi] at hx
      cases hx
      exact hs rfl
    obtain ⟨x',hx',hr⟩ := hf.other j x hj hx
    exact ⟨x',hx',hr.sessionId,hr.phase.symm ▸ hp⟩

lemma SendersExact.acts (hs : system.SendersExact) (ho : system.Owned)
    (hlen : system.handlers.length ≤ 2^32) (hi : system.handlers[i]? = some h)
    (ha : Acts cfg i h system action system') : system'.SendersExact := by
  have hf := ha.follows hi
  obtain ⟨h',hi',hid,hmoves⟩ := hf.self h hi
  intro s j
  by_cases hne : s = h.sessionId
  · subst hne
    -- the tasks with the own id are the task itself
    have hown : (∃ x, system'.handlers[j]? = some x ∧ x.sessionId = h.sessionId ∧ x.phase.Announced) ↔
        i = j ∧ h'.phase.Announced := by
      constructor
      · rintro ⟨x',hx',hid',hp⟩
        obtain ⟨x,hx,hidx,-⟩ := hf.back hx'
        obtain rfl := ho.distinct hlen hi hx (hid'.symm.trans hidx)
        rw [hi'] at hx'
        cases hx'
        exact ⟨rfl,hp⟩
      · rintro ⟨rfl,hp⟩
        exact ⟨h',hi',hid,hp⟩
    rw [hown]
    obtain ⟨hphase,hsenders⟩ | ⟨hphase,hsenders⟩ | ⟨hstart,hforgot,hsenders⟩ := ha.senders
    · rw [hsenders,Function.update_self,Option.some.injEq,iff_self_and]
      intro _
      rw [hphase] at hmoves
      generalize h'.phase = phase' at hmoves ⊢
      cases hmoves with
      | loops from' => exact from'.elim
      | announced => trivial
    · rw [hsenders,Function.update_self]
      rw [hphase] at hmoves
      generalize h'.phase = phase' at hmoves ⊢
      cases hmoves with
      | loops from' => exact from'.elim
      | unannounced => exact iff_of_false (by simp) (fun hp => hp.2)
    · rw [hsenders,hs,hmoves.announced_iff hstart hforgot]
      constructor
      · rintro ⟨x,hx,hidx,hp⟩
        obtain rfl := ho.distinct hlen hi hx hidx.symm
        rw [hi] at hx
        cases hx
        exact ⟨rfl,hp⟩
      · rintro ⟨rfl,hp⟩
        exact ⟨h,hi,rfl,hp⟩
  · have hsame : system'.notificationSenders s = system.notificationSenders s := by
      obtain ⟨-,hsenders⟩ | ⟨-,hsenders⟩ | ⟨-,-,hsenders⟩ := ha.senders
      · rw [hsenders,Function.update_of_ne hne]
      · rw [hsenders,Function.update_of_ne hne]
      · rw [hsenders]
    rw [hsame,hs,hf.announced_of_ne hi hne]

lemma SendersExact.next (hs : system.SendersExact) (ho : system.Owned)
    (hlen : system.handlers.length ≤ 2^32) {event : Event}
    (hn : system.next cfg event = some system') : system'.SendersExact := by
  cases steps_of_next hn with
  | acted handler acts => exact hs.acts ho hlen handler acts
  | cleaned => exact hs
  | accepted secs chunks =>
    intro s j
    rw [hs]
    constructor
    · rintro ⟨x,hx,hid,hp⟩
      refine ⟨x,?_,hid,hp⟩
      rw [List.getElem?_append_left (List.getElem?_eq_some_iff.mp hx).1]
      exact hx
    · rintro ⟨x,hx,hid,hp⟩
      rw [List.getElem?_append] at hx
      split_ifs at hx with hj
      · exact ⟨x,hx,hid,hp⟩
      · obtain ⟨_,rfl⟩ := List.getElem?_eq_some_iff.mp hx
        rw [List.getElem_singleton] at hp
        exact hp.elim

/-- Tasks are only added. -/
lemma length_le_of_next {event : Event} (hn : system.next cfg event = some system') :
    system.handlers.length ≤ system'.handlers.length := by
  cases steps_of_next hn with
  | acted handler acts => exact (acts.follows handler).length.ge
  | cleaned => exact le_rfl
  | accepted secs chunks =>
    rw [List.length_append]
    exact Nat.le_add_right _ _

lemma sendersExact_of_reachable (hr : Reachable (next cfg) new system)
    (hlen : system.handlers.length ≤ 2^32) : system.SendersExact := by
  have hinv := hr.invariant (I := fun system : System T P Q S M B F =>
    system.Owned ∧ (system.handlers.length ≤ 2^32 → system.SendersExact)) ?_ ⟨owned_new,?_⟩
  · exact hinv.2 hlen
  · intro a event b ⟨ho,hs⟩ hn
    refine ⟨ho.next hn,fun hb => ?_⟩
    have ha := (length_le_of_next hn).trans hb
    exact (hs ha).next ho ha hn
  · intro _ s j
    exact iff_of_false (by simp [new]) (by simp [new])

/-- The map holds the sender of a task from its first steps to its last but one. A task that was turned
away, or that panicked, never takes its sender out again: when all others have returned, the map holds
exactly the senders of these. -/
theorem senders_exact (hr : Reachable (next cfg) new system)
    (hlen : system.handlers.length ≤ 2^32) : system.SendersExact ∧
    ((∀ x ∈ system.handlers, x.phase.Ended) → ∀ s, (system.notificationSenders s).isSome ↔
      ∃ x ∈ system.handlers, x.sessionId = s ∧ (x.phase = .rejected ∨ x.phase = .panicked)) := by
  have hs := sendersExact_of_reachable hr hlen
  refine ⟨hs,?_⟩
  intro hended s
  rw [Option.isSome_iff_exists]
  constructor
  · rintro ⟨j,hj⟩
    obtain ⟨x,hx,hid,hp⟩ := (hs s j).mp hj
    have hmem := List.mem_of_getElem? hx
    refine ⟨x,hmem,hid,?_⟩
    have he := hended x hmem
    cases hphase : x.phase with
    | rejected => exact .inl rfl
    | panicked => exact .inr rfl
    | closed => rw [hphase] at hp; exact hp.elim
    | _ => rw [hphase] at he; exact he.elim
  · rintro ⟨x,hmem,hid,hphase⟩
    obtain ⟨j,hx⟩ := List.mem_iff_getElem?.mp hmem
    refine ⟨j,(hs s j).mpr ⟨x,hx,hid,?_⟩⟩
    obtain hphase | hphase := hphase
    · rw [hphase]; trivial
    · rw [hphase]; trivial

theorem senders_exact_visit : visit.SendersExact ∧
    ((∀ x ∈ visit.handlers, x.phase.Ended) → ∀ s, (visit.notificationSenders s).isSome ↔
      ∃ x ∈ visit.handlers, x.sessionId = s ∧ (x.phase = .rejected ∨ x.phase = .panicked)) :=
  senders_exact visit_reachable (by decide)

/-- Both are gone, and one sender is still there. -/
example : (∀ x ∈ visit.handlers, x.phase.Ended) ∧
    (visit.notificationSenders (IdGenerator.idOf 5 1)).isSome := by decide

end System

end TokioServer

end Picobroker
