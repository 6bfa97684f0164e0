import Picobroker.Server.Rp2040

/-! Who owns what in the RP2040 server: every session belongs to one task of the pool, so that the broker
has a place for every connection that is accepted. -/
namespace Picobroker
open Rust

variable {T P Q S M B : ℕ}

/-- With a place left, a new session is registered. -/
lemma PicoBroker.Consistent.registerNewSession_fresh {broker : PicoBroker T P Q S M B} {s : ℕ}
    (h : broker.Consistent broker.sessions.toMap) (hS : S ≤ 65535)
    (hroom : broker.sessions.ids.length < S) (hfresh : s ∉ broker.sessions.ids)
    (keepAliveSecs : UInt16) (currentTime : ℕ) : ∃ broker',
      broker.registerNewSession s keepAliveSecs currentTime = .ok () broker' := by
  have hadds : broker.sessions.Adds broker.sessions.toMap s keepAliveSecs currentTime :=
    h.shows.adds hS keepAliveSecs currentTime
  obtain ⟨sessions,hr,-⟩ := hadds.fresh hroom hfresh
  refine ⟨{ broker with sessions },?_⟩
  rw [PicoBroker.registerNewSession,PicoBroker.onSessions,Proc.zoom_apply,hr]
  rfl

namespace Rp2040Server

namespace Phase

/-- Inside the loop of `handle_connection`. -/
def Looping : Phase T P → Prop
  | .listening | .accepted | .registered | .closing | .unlisted => False
  | _ => True

/-- The task can go on without the other ones. -/
def Alone : Phase T P → Prop
  | .selecting | .reading | .filling _ | .notifying [] _ | .sending _ | .writing _ _ => True
  | _ => False

/-- The task has registered its session with the broker and not removed it again. -/
def Registered : Phase T P → Prop
  | .listening | .accepted => False
  | _ => True

/-- The session of the task is in the notification registry. -/
def Listed (phase : Phase T P) : Prop := phase.Looping ∨ phase = .closing

/-- The changes of phase. -/
inductive Moves : Phase T P → Phase T P → Prop
  | loops {phase phase' : Phase T P} (from' : phase.Looping)
      (to' : phase'.Looping ∨ phase' = .closing) : Moves phase phase'
  | registered : Moves .accepted .registered
  | refused : Moves .accepted .listening
  | listed : Moves .registered .selecting
  | unlisted : Moves .closing .unlisted
  | left : Moves .unlisted .listening

instance (phase : Phase T P) : Decidable phase.Looping := by
  unfold Looping
  split <;> infer_instance

instance (phase : Phase T P) : Decidable phase.Registered := by
  unfold Registered
  split <;> infer_instance

instance (phase : Phase T P) : Decidable phase.Listed := inferInstanceAs (Decidable (_ ∨ _))

variable {phase phase' : Phase T P}

lemma Looping.registered (h : phase.Looping) : phase.Registered := by cases phase <;> trivial

lemma Alone.looping (h : phase.Alone) : phase.Looping := by
  cases phase <;> trivial

lemma Alone.ne {p : Phase T P} (h : phase.Alone) (hp : ¬ p.Alone) : phase ≠ p := by
  rintro rfl
  exact hp h

lemma Registered.ne_listening (h : phase.Registered) : phase ≠ .listening := by
  rintro rfl
  exact h

lemma Moves.registered_of (hm : phase.Moves phase') (h : phase.Registered) :
    phase'.Registered ∨ phase = .unlisted := by
  cases hm with
  | loops _ to' =>
    obtain hl | rfl := to'
    · exact .inl hl.registered
    · exact .inl trivial
  | registered => exact h.elim
  | refused => exact h.elim
  | listed => exact .inl trivial
  | unlisted => exact .inl trivial
  | left => exact .inr rfl

/-- A task leaves `socket.accept` with a new connection only. -/
lemma Moves.not_listening (hm : phase.Moves phase') : phase ≠ .listening := by
  rintro rfl
  cases hm with
  | loops from' => exact from'

end Phase

lemma Slot.Steps.alone {cfg : Config} {slot slot' : Slot T P} {action : Action}
    (hs : slot.Steps cfg action slot') : slot.phase.Alone := by
  cases hs with
  | started phase => obtain he | he := phase <;> rw [he] <;> trivial
  | ended phase => obtain he | ⟨totalLen,he⟩ := phase <;> rw [he] <;> trivial
  | broken phase => obtain he | he | ⟨totalLen,he⟩ := phase <;> rw [he] <;> trivial
  | filled phase | paused phase | expired phase | informed phase | finished phase | encoded phase
  | refused phase | sent phase | wrote phase | dropped phase =>
    rw [phase]
    trivial

/-- A step of its own leads a task around the loop or out of it. -/
lemma Slot.Steps.moves {cfg : Config} {slot slot' : Slot T P} {action : Action}
    (hs : slot.Steps cfg action slot') : slot'.sessionId = slot.sessionId ∧
      (slot'.phase.Looping ∨ slot'.phase = .closing) := by
  have hcut : ∀ {slot slot' : Slot T P} {w now totalLen : ℕ}, slot.cut w now totalLen = some slot' →
      slot'.sessionId = slot.sessionId ∧ (slot'.phase.Looping ∨ slot'.phase = .closing) := by
    intro slot slot' w now totalLen hs
    obtain ⟨-,rfl⟩ | ⟨-,packet,-,rfl⟩ | rfl := Slot.cut_cases hs
    · exact ⟨rfl,.inl trivial⟩
    · exact ⟨rfl,.inl trivial⟩
    · exact ⟨rfl,.inr rfl⟩
  cases hs with
  | started _ _ _ start =>
    obtain ⟨-,rfl⟩ | ⟨-,r,k,-,cut⟩ | rfl := Slot.start_cases start
    · exact ⟨rfl,.inl trivial⟩
    · obtain ⟨hid,hl'⟩ := hcut cut
      exact ⟨hid,hl'⟩
    · exact ⟨rfl,.inr rfl⟩
  | filled _ _ _ cut =>
    obtain ⟨hid,hl'⟩ := hcut cut
    exact ⟨hid,hl'⟩
  | ended | broken | expired => exact ⟨rfl,.inr rfl⟩
  | paused | informed | finished | encoded | refused | sent | wrote | dropped =>
    exact ⟨rfl,.inl trivial⟩

namespace System

variable {cfg : Config} {system system' : System T P Q S M B} {i j : Fin S} {action : Action}

lemma Acts.slots_of_ne (ha : Acts cfg i system action system') (hj : j ≠ i) :
    system'.slots j = system.slots j := by
  cases ha <;> exact put_slots_of_ne hj _ _

lemma Acts.moves (ha : Acts cfg i system action system') :
    (system'.slots i).sessionId = (system.slots i).sessionId ∧
      (system.slots i).phase.Moves (system'.slots i).phase := by
  cases ha with
  | alone steps =>
    obtain ⟨hid,hl'⟩ := steps.moves
    rw [put_slots_self]
    exact ⟨hid,.loops steps.alone.looping hl'⟩
  | registered phase =>
    rw [setPhase_slots_self,phase]
    exact ⟨rfl,.registered⟩
  | refused phase =>
    rw [setPhase_slots_self,phase]
    exact ⟨rfl,.refused⟩
  | listed phase =>
    rw [put_slots_self,phase]
    exact ⟨rfl,.listed⟩
  | unlisted phase =>
    rw [setPhase_slots_self,phase]
    exact ⟨rfl,.unlisted⟩
  | left phase =>
    rw [setPhase_slots_self,phase]
    exact ⟨rfl,.left⟩
  | failed phase =>
    rw [setPhase_slots_self,phase]
    exact ⟨rfl,.loops trivial (.inr rfl)⟩
  | served phase | notified phase | woken phase | fetched phase =>
    rw [setPhase_slots_self,phase]
    exact ⟨rfl,.loops trivial (.inl trivial)⟩

lemma Acts.sessionIdGen (ha : Acts cfg i system action system') :
    system'.sessionIdGen = system.sessionIdGen := by
  cases ha <;> rfl

/-- Whatever a task does, the broker was changed by public calls only. -/
lemma Acts.reachable (ha : Acts cfg i system action system') :
    Reachable PicoBroker.next system.broker system'.broker := by
  have hrefl : Reachable PicoBroker.next system.broker system.broker := .refl _ _
  cases ha with
  | @registered currentTime broker _ call | @refused currentTime _ broker _ call =>
    refine hrefl.step
      (a := .registerNewSession (system.slots i).sessionId cfg.defaultKeepAlive currentTime) ?_
    exact congrArg Outcome.state? call
  | served _ call | failed _ call =>
    exact PicoBroker.calls_serve _ _ _ _ _ _ (congrArg Outcome.state? call)
  | fetched _ call => exact PicoBroker.calls_dequeueInto _ _ _ _ _ _ (congrArg Outcome.state? call)
  | left => exact hrefl.step (a := .removeSession (system.slots i).sessionId) rfl
  | alone | listed | notified | woken | unlisted => exact hrefl

/-! ### What a step does to the broker -/

/-- The packet that a step processes: for which session, and when. -/
def arriving : System T P Q S M B × Event S → Option (ℕ × Packet T P × ℕ)
  | (system,.task i (.serve currentTime)) =>
    match (system.slots i).phase with
    | .received packet => some ((system.slots i).sessionId,packet,currentTime)
    | _ => none
  | _ => none

/-- What a step queues for a session. -/
def entering (s : ℕ) (e : System T P Q S M B × Event S) : List (Packet T P) :=
  match arriving e with
  | some (s',packet,currentTime) => e.1.broker.queuedFor s' packet currentTime s
  | none => []

lemma arriving_serve {packet : Packet T P} {currentTime : ℕ}
    (phase : (system.slots i).phase = .received packet) :
    arriving (system,.task i (.serve currentTime)) =
      some ((system.slots i).sessionId,packet,currentTime) := by
  simp only [arriving,phase]

lemma arriving_eq_some {event : Event S} {s currentTime : ℕ} {packet : Packet T P}
    (ha : arriving (system,event) = some (s,packet,currentTime)) :
    ∃ i, event = .task i (.serve currentTime) ∧ (system.slots i).phase = .received packet ∧
      (system.slots i).sessionId = s := by
  unfold arriving at ha
  split at ha
  next i now he =>
    obtain ⟨rfl,rfl⟩ := Prod.mk.inj he
    split at ha
    next phase =>
      cases ha
      exact ⟨i,rfl,phase,rfl⟩
    next => cases ha
  next => cases ha

/-- A step that is not the processing of a packet queues nothing. -/
lemma arriving_of_ne (hne : ∀ currentTime, action ≠ .serve currentTime) :
    arriving (system,.task i action) = none := by
  cases ha : arriving (system,.task i action) with
  | none => rfl
  | some a =>
    obtain ⟨j,he,-⟩ := arriving_eq_some ha
    cases he
    exact absurd rfl (hne _)

lemma entering_of_ne (hne : ∀ currentTime, action ≠ .serve currentTime) (s : ℕ) :
    entering s (system,.task i action) = [] := by
  rw [entering,arriving_of_ne hne]

lemma entering_serve {packet : Packet T P} {currentTime : ℕ}
    (phase : (system.slots i).phase = .received packet) (s : ℕ) :
    entering s (system,.task i (.serve currentTime)) =
      system.broker.queuedFor (system.slots i).sessionId packet currentTime s := by
  rw [entering,arriving_serve phase]

/-- The broker after a step of the task of the session `s`, which leads from one phase to another and
queues these packets. -/
inductive Effect (s : ℕ) (broker : PicoBroker T P Q S M B) (queued : ℕ → List (Packet T P)) :
    Phase T P → Phase T P → PicoBroker T P Q S M B → Prop
  | none {phase phase' : Phase T P} (moves : phase.Moves phase') (woken : phase ≠ .woken)
      (unlisted : phase ≠ .unlisted) (registered : phase' ≠ .registered)
      (received : ∀ packet, phase = .received packet → phase' = .closing)
      (quiet : ∀ t, queued t = []) : Effect s broker queued phase phase' broker
  | registered {profile : Profile} {broker' : PicoBroker T P Q S M B}
      (fresh : s ∉ broker.sessions.toMap.ids) (topics : broker'.topics = broker.topics)
      (quiet : ∀ t, queued t = [])
      (consistent : broker'.Consistent (broker.sessions.toMap.add s profile)) :
      Effect s broker queued .accepted .registered broker'
  | served {packet : Packet T P} {sessions : List ℕ} {packets : List (Packet T P)}
      {processed broker' : PicoBroker T P Q S M B} (mem : s ∈ broker.sessions.toMap.ids)
      (grown : broker.Grown s processed) (tx : ∀ t, processed.tx t = broker.tx t ++ queued t)
      (topics : broker'.topics = processed.topics)
      (consistent : broker'.Consistent (processed.sessions.toMap.setTx s []))
      (pending : ∀ t, broker'.tx t = [] ∨ t ∈ sessions)
      (pushed : packets = (processed.tx s).foldl push []) :
      Effect s broker queued (.received packet) (.notifying sessions packets) broker'
  | failed {packet : Packet T P} {broker' : PicoBroker T P Q S M B}
      (mem : s ∈ broker.sessions.toMap.ids) (grown : broker.Grown s broker')
      (tx : ∀ t, broker'.tx t = broker.tx t ++ queued t) :
      Effect s broker queued (.received packet) .closing broker'
  | fetched {packets : List (Packet T P)} {broker' : PicoBroker T P Q S M B}
      (topics : broker'.topics = broker.topics) (quiet : ∀ t, queued t = [])
      (consistent : broker'.Consistent (broker.sessions.toMap.setTx s []))
      (pushed : packets = (broker.tx s).foldl push []) :
      Effect s broker queued .woken (.sending packets) broker'
  | left (quiet : ∀ t, queued t = []) :
      Effect s broker queued .unlisted .listening (broker.removeSession s).2

lemma Acts.effect (ha : Acts cfg i system action system')
    (hc : system.broker.Consistent system.broker.sessions.toMap) :
    Effect (system.slots i).sessionId system.broker (fun t => entering t (system,.task i action))
      (system.slots i).phase (system'.slots i).phase system'.broker := by
  have hmoves := ha.moves.2
  cases ha with
  | @alone action slot steps =>
    obtain ⟨-,hl'⟩ := steps.moves
    refine .none hmoves (steps.alone.ne id) (steps.alone.ne id) ?_
      (fun _ he => absurd he (steps.alone.ne id)) (entering_of_ne ?_)
    · rw [put_slots_self]
      intro he
      rw [he] at hl'
      obtain hl' | hl' := hl'
      · exact hl'
      · cases hl'
    · rintro currentTime rfl
      cases steps
  | @registered currentTime broker phase call =>
    obtain ⟨e,hr⟩ | ⟨why,hr⟩ | ⟨b,hr,fresh,topics,hb⟩ :=
      hc.registerNewSession (system.slots i).sessionId cfg.defaultKeepAlive currentTime
    · rw [hr] at call; cases call
    · rw [hr] at call; cases call
    · rw [hr] at call
      cases call
      rw [setPhase_slots_self,phase]
      exact .registered fresh topics (entering_of_ne (by simp)) hb
  | @refused currentTime error broker phase call =>
    obtain ⟨e,hr⟩ | ⟨why,hr⟩ | ⟨b,hr,-⟩ :=
      hc.registerNewSession (system.slots i).sessionId cfg.defaultKeepAlive currentTime
    · rw [hr] at call
      cases call
      refine .none hmoves (by simp [phase]) (by simp [phase]) ?_ (by simp [phase])
        (entering_of_ne (by simp))
      simp [setPhase]
    · rw [hr] at call; cases call
    · rw [hr] at call; cases call
  | @served currentTime packet sessions packets broker phase call =>
    have hs := hc.serve (ε := Empty) push (system.slots i).sessionId packet currentTime
    rw [call] at hs
    simp only [entering_serve phase]
    rw [setPhase_slots_self,phase]
    cases hs with
    | @done processed _ mem grown tx topics consistent =>
      exact .served mem grown tx topics consistent (hc.served_tx call) rfl
  | @failed currentTime packet error broker phase call =>
    have hs := hc.serve (ε := Empty) push (system.slots i).sessionId packet currentTime
    rw [call] at hs
    cases hs with
    | absent mem none =>
      refine .none hmoves (by simp [phase]) (by simp [phase]) ?_ ?_ ?_
      · simp [setPhase]
      · simp [setPhase]
      · intro t
        rw [entering_serve phase]
        exact none t
    | failed mem grown tx =>
      simp only [entering_serve phase]
      rw [setPhase_slots_self,phase]
      exact .failed mem grown tx
  | @fetched packets broker phase call =>
    obtain ⟨b,hd,topics,hb,-⟩ := hc.dequeueAll (ε := Empty) push (system.slots i).sessionId
    rw [hd] at call
    cases call
    rw [setPhase_slots_self,phase]
    refine .fetched topics (entering_of_ne (by simp)) hb ?_
    rw [hc.tx_eq]
  | left phase =>
    rw [setPhase_slots_self,phase]
    exact .left (entering_of_ne (by simp))
  | listed phase | notified phase | woken phase | unlisted phase =>
    refine .none hmoves (by simp [phase]) (by simp [phase]) ?_ (by simp [phase])
      (entering_of_ne (by simp))
    simp [setPhase]

/-! ### Sessions and their tasks -/

section Effect

variable {s t : ℕ} {broker broker' : PicoBroker T P Q S M B} {queued : ℕ → List (Packet T P)}
  {phase phase' : Phase T P}

/-- A task registers and removes no session but its own. -/
lemma Effect.mem_ids (he : Effect s broker queued phase phase' broker')
    (hc : broker.Consistent broker.sessions.toMap) (ht : t ≠ s) :
    t ∈ broker'.sessions.ids ↔ t ∈ broker.sessions.ids := by
  change t ∈ broker'.sessions.toMap.ids ↔ t ∈ broker.sessions.toMap.ids
  cases he with
  | none => rfl
  | registered _ _ _ consistent =>
    rw [consistent.toMap_eq,SessionMap.add_ids,List.mem_append,List.mem_singleton]
    exact or_iff_left ht
  | served _ grown _ _ consistent => rw [consistent.toMap_eq,SessionMap.setTx_ids,grown.ids]
  | failed _ grown => rw [grown.ids]
  | fetched _ _ consistent => rw [consistent.toMap_eq,SessionMap.setTx_ids]
  | left =>
    rw [(hc.removeSession s).toMap_eq,SessionMap.remove_ids,List.mem_filter,bne_iff_ne]
    exact and_iff_left ht

/-- The own session is registered afterwards only in the hands of the task. -/
lemma Effect.mem_own (he : Effect s broker queued phase phase' broker')
    (hc : broker.Consistent broker.sessions.toMap) (hs : s ∈ broker'.sessions.ids) :
    (s ∈ broker.sessions.ids ∧ phase ≠ .unlisted) ∨ phase' = .registered := by
  cases he with
  | none _ _ unlisted => exact .inl ⟨hs,unlisted⟩
  | registered => exact .inr rfl
  | served mem => exact .inl ⟨mem,by simp⟩
  | failed mem => exact .inl ⟨mem,by simp⟩
  | fetched _ _ consistent =>
    refine .inl ⟨?_,by simp⟩
    change s ∈ broker'.sessions.toMap.ids at hs
    rwa [consistent.toMap_eq] at hs
  | left =>
    change s ∈ (broker.removeSession s).2.sessions.toMap.ids at hs
    rw [(hc.removeSession s).toMap_eq,SessionMap.remove_ids,List.mem_filter] at hs
    simp at hs

end Effect

/-- How many connections were accepted in the course of a run. -/
def accepted (hist : List (System T P Q S M B × Event S)) : ℕ :=
  hist.countP (fun e => match e.2 with
    | .accept _ _ _ => true
    | _ => false)

/-- What holds after `n` connections: the broker is one that the public operations reach, every session
belongs to a task, and the lower half of the ids counts the connections. -/
structure Pooled (n : ℕ) (system : System T P Q S M B) : Prop where
  broker : Reachable PicoBroker.next .new system.broker
  generator : system.sessionIdGen = IdGenerator.new.advance n
  sessions : ∀ s ∈ system.broker.sessions.ids,
    ∃ i, (system.slots i).phase.Registered ∧ (system.slots i).sessionId = s
  numbered : n ≤ 2^32 → ∀ i, (system.slots i).phase ≠ .listening →
    (system.slots i).sessionId % 2^32 < n
  distinct : n ≤ 2^32 → ∀ i j, (system.slots i).phase ≠ .listening →
    (system.slots j).phase ≠ .listening → (system.slots i).sessionId = (system.slots j).sessionId → i = j

variable {n : ℕ} {hist : List (System T P Q S M B × Event S)}

lemma pooled_new : Pooled 0 (new : System T P Q S M B) := by
  refine ⟨.refl _ _,rfl,?_,?_,?_⟩
  · intro s hs
    cases hs
  · exact fun _ i hi => absurd rfl hi
  · exact fun _ i _ hi => absurd rfl hi

lemma Pooled.consistent (hp : Pooled n system) :
    system.broker.Consistent system.broker.sessions.toMap :=
  PicoBroker.consistent_of_reachable hp.broker

/-- A task that is not listening after the step of another one, or of its own, was not before. -/
lemma Acts.not_listening (ha : Acts cfg i system action system')
    (hj : (system'.slots j).phase ≠ .listening) : (system.slots j).phase ≠ .listening ∧
      (system'.slots j).sessionId = (system.slots j).sessionId := by
  by_cases hij : j = i
  · subst hij
    exact ⟨ha.moves.2.not_listening,ha.moves.1⟩
  · rw [ha.slots_of_ne hij] at hj ⊢
    exact ⟨hj,rfl⟩

lemma Pooled.acts (hp : Pooled n system) (ha : Acts cfg i system action system') :
    Pooled n system' := by
  have hc := hp.consistent
  have he := ha.effect hc
  obtain ⟨hist,hrun⟩ := ha.reachable
  refine ⟨hp.broker.run hrun,ha.sessionIdGen.trans hp.generator,?_,?_,?_⟩
  · intro s hs
    have hother : ∀ j ≠ i, (system.slots j).phase.Registered → (system.slots j).sessionId = s →
        ∃ j, (system'.slots j).phase.Registered ∧ (system'.slots j).sessionId = s := by
      intro j hj hreg hid
      refine ⟨j,?_⟩
      rw [ha.slots_of_ne hj]
      exact ⟨hreg,hid⟩
    by_cases hown : s = (system.slots i).sessionId
    · subst hown
      obtain ⟨hmem,hne⟩ | hphase := he.mem_own hc hs
      · obtain ⟨j,hreg,hid⟩ := hp.sessions _ hmem
        by_cases hj : j = i
        · subst hj
          exact ⟨j,(ha.moves.2.registered_of hreg).resolve_right hne,ha.moves.1⟩
        · exact hother j hj hreg hid
      · exact ⟨i,by rw [hphase]; trivial,ha.moves.1⟩
    · obtain ⟨j,hreg,hid⟩ := hp.sessions s ((he.mem_ids hc hown).mp hs)
      refine hother j ?_ hreg hid
      rintro rfl
      exact hown hid.symm
  · intro hn j hj
    obtain ⟨hj',hid⟩ := ha.not_listening hj
    rw [hid]
    exact hp.numbered hn j hj'
  · intro hn j k hj hk hid
    obtain ⟨hj',hidj⟩ := ha.not_listening hj
    obtain ⟨hk',hidk⟩ := ha.not_listening hk
    exact hp.distinct hn j k hj' hk' (hidj ▸ hidk ▸ hid)

/-- A scan that does not panic removes exactly what it lists. -/
lemma eq_cleaned_of_cleanup {broker broker' : PicoBroker T P Q S M B} {currentTime : ℕ}
    (hc : broker.Consistent broker.sessions.toMap) (scan : cleanup currentTime broker = some broker') :
    broker' = broker.cleaned currentTime := by
  rw [hc.cleanup_rp2040] at scan
  split_ifs at scan
  exact (Option.some.inj scan).symm

lemma accepted_concat (e : System T P Q S M B × Event S) :
    accepted (hist ++ [e]) = accepted hist + accepted [e] := List.countP_append

/-- The id of the next connection. -/
lemma Pooled.generate (hp : Pooled n system) (ticks : UInt64) :
    (generate ticks system.sessionIdGen).2 = IdGenerator.new.advance (n+1) ∧
      (n < 2^32 → (generate ticks system.sessionIdGen).1 % 2^32 = n) := by
  have hgen : Rp2040Server.generate ticks system.sessionIdGen =
      (IdGenerator.idOf ticks (IdGenerator.new.advance n).counter,IdGenerator.new.advance (n+1)) := by
    rw [hp.generator]
    exact IdGenerator.generateAt_advance ticks _ _
  refine ⟨congrArg Prod.snd hgen,fun hlt => ?_⟩
  rw [hgen,IdGenerator.idOf_mod,IdGenerator.counter_advance]
  have hzero : (IdGenerator.new.counter).toNat = 0 := rfl
  omega

lemma Pooled.accept (hp : Pooled n system) (ticks : UInt64) (stream : Bytes)
    (phase : (system.slots i).phase = .listening) : Pooled (n+1) (put i
      ⟨.accepted,(Rp2040Server.generate ticks system.sessionIdGen).1,[],[],0,stream,[]⟩
      { system with sessionIdGen := (Rp2040Server.generate ticks system.sessionIdGen).2 }) := by
  obtain ⟨hgen,hmod⟩ := hp.generate ticks
  have hnumbered : n < 2^32 → ∀ j, j ≠ i → (system.slots j).phase ≠ .listening →
      (system.slots j).sessionId ≠ (Rp2040Server.generate ticks system.sessionIdGen).1 := by
    intro hlt j _ hj he
    have hold := hp.numbered hlt.le j hj
    rw [he,hmod hlt] at hold
    exact lt_irrefl n hold
  refine ⟨hp.broker,hgen,?_,?_,?_⟩
  · intro s hs
    obtain ⟨j,hreg,hid⟩ := hp.sessions s hs
    have hj : j ≠ i := by
      rintro rfl
      exact hreg.ne_listening phase
    refine ⟨j,?_⟩
    rw [put_slots_of_ne hj]
    exact ⟨hreg,hid⟩
  · intro hlen j hj
    by_cases hji : j = i
    · subst hji
      rw [put_slots_self]
      exact (hmod hlen).trans_lt (Nat.lt_succ_self n)
    · rw [put_slots_of_ne hji] at hj ⊢
      exact (hp.numbered ((Nat.le_succ n).trans hlen) j hj).trans (Nat.lt_succ_self n)
  · intro hlen j k hj hk hid
    by_cases hji : j = i
    · by_cases hki : k = i
      · rw [hji,hki]
      · rw [hji,put_slots_self,put_slots_of_ne hki] at hid
        rw [put_slots_of_ne hki] at hk
        exact absurd hid.symm (hnumbered hlen k hki hk)
    · rw [put_slots_of_ne hji] at hj hid
      by_cases hki : k = i
      · rw [hki,put_slots_self] at hid
        exact absurd hid (hnumbered hlen j hji hj)
      · rw [put_slots_of_ne hki] at hk hid
        exact hp.distinct ((Nat.le_succ n).trans hlen) j k hj hk hid

lemma Pooled.next (hp : Pooled n system) {event : Event S}
    (hn : system.next cfg event = some system') :
    Pooled (n + accepted [(system,event)]) system' := by
  cases steps_of_next hn with
  | acted acts => exact hp.acts acts
  | accepted ticks stream phase => exact hp.accept ticks stream phase
  | cleaned scan =>
    have hc := hp.consistent
    obtain rfl := eq_cleaned_of_cleanup hc scan
    obtain ⟨hist,hrun⟩ := PicoBroker.reachable_cleaned _ system.broker
    refine ⟨hp.broker.run hrun,hp.generator,?_,hp.numbered,hp.distinct⟩
    intro s hs
    exact hp.sessions s ((hc.mem_cleaned _ s).mp hs).1

lemma pooled_of_run (hr : Run (next cfg) new hist system) : Pooled (accepted hist) system := by
  refine hr.history (H := fun hist => Pooled (accepted hist)) pooled_new ?_
  intro hist system event system' _ hp hn
  rw [accepted_concat]
  exact hp.next hn

/-- While a connection waits for its session, another task of the pool has none, and so the broker has
a place. -/
lemma Pooled.room (hp : Pooled n system) (hlen : n ≤ 2^32)
    (hi : (system.slots i).phase = .accepted) :
    system.broker.sessions.ids.length < S ∧
      (system.slots i).sessionId ∉ system.broker.sessions.ids := by
  have hne : ∀ j, (system.slots j).phase.Registered → j ≠ i := by
    rintro j hreg rfl
    rw [hi] at hreg
    exact hreg
  constructor
  · have hnodup : system.broker.sessions.ids.Nodup := hp.consistent.shows.wellFormed.distinct
    have hsub : system.broker.sessions.ids.toFinset ⊆
        (Finset.univ.erase i).image (fun j => (system.slots j).sessionId) := by
      intro s hs
      obtain ⟨j,hreg,hid⟩ := hp.sessions s (List.mem_toFinset.mp hs)
      exact Finset.mem_image.mpr ⟨j,Finset.mem_erase.mpr ⟨hne j hreg,Finset.mem_univ j⟩,hid⟩
    calc system.broker.sessions.ids.length = system.broker.sessions.ids.toFinset.card :=
          (List.toFinset_card_of_nodup hnodup).symm
      _ ≤ ((Finset.univ.erase i).image (fun j => (system.slots j).sessionId)).card :=
          Finset.card_le_card hsub
      _ ≤ (Finset.univ.erase i).card := Finset.card_image_le
      _ < (Finset.univ : Finset (Fin S)).card := Finset.card_erase_lt_of_mem (Finset.mem_univ i)
      _ = S := Finset.card_fin S
  · intro hmem
    obtain ⟨j,hreg,hid⟩ := hp.sessions _ hmem
    exact hne j hreg (hp.distinct hlen j i hreg.ne_listening (by simp [hi]) hid)

/-- Nothing is stored: no session and no filter. -/
def Vacant (system : System T P Q S M B) : Prop :=
  system.broker.sessions.ids = [] ∧ system.broker.topics.topics.asSlice = []

lemma Pooled.vacant (hp : Pooled n system)
    (hall : ∀ i, ¬ (system.slots i).phase.Registered) : system.Vacant := by
  have hids : system.broker.sessions.ids = [] := by
    rw [List.eq_nil_iff_forall_not_mem]
    intro s hs
    obtain ⟨i,hreg,-⟩ := hp.sessions s hs
    exact hall i hreg
  refine ⟨hids,?_⟩
  have hc := hp.consistent
  rw [List.eq_nil_iff_forall_not_mem]
  intro entry hentry
  obtain ⟨s,hs⟩ := List.exists_mem_of_ne_nil _ (hc.topics.nonempty entry hentry)
  have hmem : s ∈ system.broker.sessions.ids := hc.registered entry hentry s hs
  rw [hids] at hmem
  cases hmem

/-- Whatever the order in which the tasks of the pool run: every session belongs to exactly one task,
which will remove it, and no client that was accepted is turned away by the broker. When no task holds a
session, nothing is left. -/
theorem pool_suffices (hS : S ≤ 65535) (hr : Run (next cfg) new hist system)
    (hlen : accepted hist ≤ 2^32) :
    (∀ s ∈ system.broker.sessions.ids,
      ∃! i, (system.slots i).phase.Registered ∧ (system.slots i).sessionId = s) ∧
    (∀ i currentTime, (system.slots i).phase = .accepted → ∃ broker,
      system.broker.registerNewSession (system.slots i).sessionId cfg.defaultKeepAlive currentTime =
        .ok () broker) ∧
    ((∀ i, ¬ (system.slots i).phase.Registered) → system.Vacant) := by
  have hp := pooled_of_run hr
  refine ⟨?_,?_,hp.vacant⟩
  · intro s hs
    obtain ⟨i,hreg,hid⟩ := hp.sessions s hs
    refine ⟨i,⟨hreg,hid⟩,?_⟩
    rintro j ⟨hreg',hid'⟩
    exact hp.distinct hlen j i hreg'.ne_listening hreg.ne_listening (hid'.trans hid.symm)
  · intro i currentTime hi
    obtain ⟨hroom,hfresh⟩ := hp.room hlen hi
    exact hp.consistent.registerNewSession_fresh hS hroom hfresh cfg.defaultKeepAlive currentTime

/-- A client sends these bytes, and the task `i` serves it. -/
def arrival (i : Fin S) (stream : Bytes) : List (Event S) :=
  [.accept i 5 stream,.task i (.register 0),.task i (.list 0)]

def boardConfig : Config := ⟨60,64,32⟩

/-- The task of a pool of one, and those of a pool of two. -/
def onlyTask : Fin 1 := 0
def firstTask : Fin 2 := 0
def secondTask : Fin 2 := 1

/-- There is room for two sessions. Two clients come, the first one leaves, and a third one comes. -/
def swapEvents : List (Event 2) := arrival firstTask [] ++ arrival secondTask [] ++
  [.task firstTask (.read 0 1),.task firstTask .unlist,.task firstTask .leave,
    .accept firstTask 5 []]

def swapped : System 1 1 1 2 1 1 := (exec (next boardConfig) new swapEvents).get (by decide)
def swapTrace : List (System 1 1 1 2 1 1 × Event 2) := trace (next boardConfig) new swapEvents

lemma swap_run : Run (next boardConfig) new swapTrace swapped :=
  run_trace (Option.some_get (by decide)).symm

theorem pool_suffices_swap :
    (∀ s ∈ swapped.broker.sessions.ids,
      ∃! i, (swapped.slots i).phase.Registered ∧ (swapped.slots i).sessionId = s) ∧
    (∀ i currentTime, (swapped.slots i).phase = .accepted → ∃ broker,
      swapped.broker.registerNewSession (swapped.slots i).sessionId boardConfig.defaultKeepAlive
        currentTime = .ok () broker) ∧
    ((∀ i, ¬ (swapped.slots i).phase.Registered) → swapped.Vacant) :=
  pool_suffices (by decide) swap_run (by decide)

end System

end Rp2040Server

end Picobroker
