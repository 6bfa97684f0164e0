import Picobroker.Server.Ownership

/-! Notifications in the Tokio server: a session with packets to send is not forgotten, whatever the
order in which the tasks run, as long as the processing that queued them succeeds. -/
namespace Picobroker
open Rust

variable {T P Q S M B F : ℕ}

namespace TokioServer

namespace Phase

/-- The task will come back to `tokio::select!`. -/
def Live (phase : Phase T P) : Prop := phase = .joined ∨ phase.Looping

/-- The task is still to notify the session. -/
def Owes (s : ℕ) : Phase T P → Prop
  | .notifying sessions _ => s ∈ sessions
  | .awaiting session _ sessions _ => s = session ∨ s ∈ sessions
  | _ => False

variable {phase phase' : Phase T P} {action : Action}

lemma Live.announced (h : phase.Live) : phase.Announced := by
  obtain rfl | h := h
  · trivial
  · exact h.announced

lemma Live.not_ended (h : phase.Live) : ¬ phase.Ended := by
  obtain rfl | h := h
  · exact id
  · intro he
    cases phase <;> first | exact h | exact he

/-- A task in the loop was there before, or has just registered its session. -/
lemma Moves.live (hm : phase.Moves action phase') (h : phase'.Live) :
    phase.Live ∨ phase = .announced := by
  cases hm with
  | loops from' => exact .inl (.inr from')
  | inserted => exact .inl (.inl rfl)
  | joined => exact .inr rfl
  | rejected => exact .inr rfl
  | announced | forgot | unannounced | left =>
    obtain h | h := h
    · cases h
    · exact h.elim

end Phase

/-- What a step of its own does to the notifications of a task. -/
lemma Handler.Steps.signals {cfg : Config} {h h' : Handler T P F} {action : Action}
    (hs : h.Steps cfg action h') :
    (h'.notify = h.notify ∨ h'.phase = .woken) ∧ h.phase ≠ .woken ∧ (∀ s, ¬ h.phase.Owes s) ∧
      h'.phase.held = none := by
  cases hs with
  | absorbed phase | received phase | ended phase | readPanicked phase | informed phase | woken phase
  | finished phase | queued phase | refused phase | sendPanicked phase | picked phase | wrote phase
  | flushed phase | broken phase | expired phase | stayed phase => simp [phase,Phase.Owes,Phase.held]

namespace System

variable {cfg : Config} {system system' : System T P Q S M B F} {i k target : ℕ}
  {h h' x x' : Handler T P F} {action : Action}

/-- The task waits for a lock to fetch its packets, or a notification waits in its channel, or another
task is still to send it one. -/
def Alerted (system : System T P Q S M B F) (x : Handler T P F) : Prop :=
  x.notify.items ≠ [] ∨ x.phase = .woken ∨
    ∃ (k : ℕ) (y : Handler T P F), system.handlers[k]? = some y ∧ y.phase.Owes x.sessionId

/-- No task in the loop is forgotten whose session has packets to send. -/
def NoneForgotten (system : System T P Q S M B F) : Prop :=
  ∀ (k : ℕ) (x : Handler T P F), system.handlers[k]? = some x → x.phase.Live →
    system.broker.tx x.sessionId ≠ [] → system.Alerted x

/-- A task that waits for room in a channel waits for the task of the session it notifies. -/
def Targets (system : System T P Q S M B F) : Prop :=
  ∀ (k : ℕ) (x : Handler T P F) (session target : ℕ) (sessions : List ℕ) (packets : List (Packet T P)),
    system.handlers[k]? = some x → x.phase = .awaiting session target sessions packets →
    ∃ t : Handler T P F, system.handlers[target]? = some t ∧ t.sessionId = session

/-- The packet that a step processes: for which session, and when. -/
def arriving : System T P Q S M B F × Event → Option (ℕ × Packet T P × ℕ)
  | (system,.task i (.serve currentTime)) => system.handlers[i]?.bind (fun h =>
    match h.phase with
    | .received packet => some (h.sessionId,packet,currentTime)
    | _ => none)
  | _ => none

/-- The session of the processing that a step makes, and what the processing returns. -/
def processing (e : System T P Q S M B F × Event) :
    Option (ℕ × Outcome (PicoBroker T P Q S M B) Empty
      (Except BrokerError (List ℕ × List (Packet T P)))) :=
  (arriving e).map (fun a => (a.1,PicoBroker.serve push a.1 a.2.1 a.2.2 e.1.broker))

/-- The processing failed, for a session that the broker has. -/
def Fails (e : System T P Q S M B F × Event) : Prop :=
  match processing e with
  | some (s,.ok (.error _) _) => s ∈ e.1.broker.sessions.ids
  | _ => False

def Succeeds (e : System T P Q S M B F × Event) : Prop :=
  match processing e with
  | some (_,.ok (.ok _) _) => True
  | _ => False

instance (e : System T P Q S M B F × Event) : Decidable (Fails e) := by
  unfold Fails
  split <;> infer_instance

lemma arriving_eq_some {event : Event} {s currentTime : ℕ} {packet : Packet T P}
    (ha : arriving (system,event) = some (s,packet,currentTime)) :
    ∃ i h, event = .task i (.serve currentTime) ∧ system.handlers[i]? = some h ∧
      h.phase = .received packet ∧ h.sessionId = s := by
  unfold arriving at ha
  split at ha
  next i now he =>
    obtain ⟨rfl,rfl⟩ := Prod.mk.inj he
    obtain ⟨h,hi,hh⟩ := Option.bind_eq_some_iff.mp ha
    split at hh
    next hphase =>
      cases hh
      exact ⟨i,h,rfl,hi,hphase,rfl⟩
    next => cases hh
  next => cases ha

/-- Where the processing that succeeded leads. -/
lemma Succeeds.next {event : Event} (hs : Succeeds (system,event))
    (hn : system.next cfg event = some system') :
    ∃ i h packet currentTime sessions packets broker, system.handlers[i]? = some h ∧
      (PicoBroker.serve push h.sessionId packet currentTime system.broker : Outcome _ Empty _) =
        .ok (.ok (sessions,packets)) broker ∧
      system' = setPhase i (.notifying sessions packets) { system with broker } := by
  unfold Succeeds at hs
  split at hs
  next s result broker hp =>
    obtain ⟨⟨s,packet,currentTime⟩,ha,hcall⟩ := Option.map_eq_some_iff.mp hp
    obtain ⟨i,h,rfl,hi,hphase,rfl⟩ := arriving_eq_some ha
    obtain ⟨-,call⟩ := Prod.mk.inj hcall
    obtain ⟨sessions,packets⟩ := result
    rw [System.next,hi,Option.bind_some] at hn
    simp only [act,hphase,call,Option.some.injEq] at hn
    exact ⟨i,h,packet,currentTime,sessions,packets,broker,hi,call,hn.symm⟩
  next => exact hs.elim

/-- A signal reaches its task, unless that is over. -/
lemma Signals.reaches (hs : Signals target system system') (ht : system.handlers[target]? = some x)
    (hlive : ¬ x.phase.Ended) :
    ∃ x', system'.handlers[target]? = some x' ∧ x.Receives x' ∧ x'.notify.items ≠ [] := by
  cases hs with
  | gone gone => exact absurd (gone x ht) hlive
  | @queued t notify receiver _ items =>
    obtain ⟨x',hx',hr⟩ := Signals.receives (.queued receiver ‹_› items) ht
    refine ⟨x',hx',hr,?_⟩
    obtain ⟨y,hy,rfl⟩ := update_handler.mp hx'
    rw [if_pos rfl]
    simp [items]

/-- A phase that is set leaves the channels alone. -/
lemma setPhase_notify (i : ℕ) (phase : Phase T P) (hx : system.handlers[k]? = some x) :
    ∃ x', (system.setPhase i phase).handlers[k]? = some x' ∧ x'.notify = x.notify ∧
      x'.sessionId = x.sessionId ∧ x'.phase = if i = k then phase else x.phase := by
  refine ⟨_,update_handler.mpr ⟨x,hx,rfl⟩,?_⟩
  by_cases hk : i = k
  · simp [hk]
  · simp [hk]

/-- A task that owes a notification still owes it after its step, or has sent it. -/
lemma Acts.pays (ha : Acts cfg i h system action system') (hi : system.handlers[i]? = some h)
    (hsenders : system.SendersExact) (htargets : system.Targets) (ho : system.Owned)
    (hlen : system.handlers.length ≤ 2^32) (hx : system.handlers[k]? = some x)
    (hlive : x.phase.Live) (howes : h.phase.Owes x.sessionId) :
    (∃ h', system'.handlers[i]? = some h' ∧ h'.phase.Owes x.sessionId) ∨
      ∃ x', system'.handlers[k]? = some x' ∧ x'.notify.items ≠ [] := by
  have hsender : system.notificationSenders x.sessionId = some k :=
    (hsenders x.sessionId k).mpr ⟨x,hx,rfl,hlive.announced⟩
  have hstill : ∀ {phase : Phase T P}, phase.Owes x.sessionId →
      ∃ h', (system.setPhase i phase).handlers[i]? = some h' ∧ h'.phase.Owes x.sessionId := by
    intro phase hp
    obtain ⟨h',hi',-,-,hphase⟩ := setPhase_notify i phase hi
    rw [if_pos rfl] at hphase
    exact ⟨h',hi',hphase.symm ▸ hp⟩
  -- the signal that the step sends, to the task of `session`
  have hsent : ∀ {session target : ℕ} {sessions : List ℕ} {packets : List (Packet T P)}
      {system₁ : System T P Q S M B F}, (x.sessionId = session ∨ x.sessionId ∈ sessions) →
      (x.sessionId = session → k = target) → Signals target system system₁ →
      (∃ h', (system₁.setPhase i (.notifying sessions packets)).handlers[i]? = some h' ∧
        h'.phase.Owes x.sessionId) ∨
      ∃ x', (system₁.setPhase i (.notifying sessions packets)).handlers[k]? = some x' ∧
        x'.notify.items ≠ [] := by
    intro session target sessions packets system₁ hmem htarget signals
    obtain hsession | hmem := hmem
    · obtain rfl := htarget hsession
      obtain ⟨x₁,hx₁,-,hne⟩ := signals.reaches hx hlive.not_ended
      obtain ⟨x₂,hx₂,hnotify,-⟩ :=
        setPhase_notify i (.notifying sessions packets) hx₁
      exact .inr ⟨x₂,hx₂,hnotify.symm ▸ hne⟩
    · obtain ⟨h₁,hi₁,-⟩ := signals.receives hi
      obtain ⟨h₂,hi₂,-,-,hphase⟩ :=
        setPhase_notify i (.notifying sessions packets) hi₁
      rw [if_pos rfl] at hphase
      exact .inl ⟨h₂,hi₂,hphase.symm ▸ hmem⟩
  cases ha with
  | alone step => exact absurd howes (step.signals.2.2.1 _)
  | @skipped session sessions packets phase sender =>
    rw [phase] at howes
    obtain hsession | hmem := List.mem_cons.mp howes
    · rw [← hsession,hsender] at sender
      cases sender
    · exact .inl (hstill hmem)
  | @notified session target sessions packets system₁ phase sender signals =>
    rw [phase] at howes
    refine hsent (List.mem_cons.mp howes) ?_ signals
    intro hsession
    rw [← hsession,hsender] at sender
    cases sender
    rfl
  | @blocked session target sessions packets phase sender full =>
    rw [phase] at howes
    exact .inl (hstill (List.mem_cons.mp howes))
  | @resumed session target sessions packets system₁ phase signals =>
    obtain ⟨t,ht,hid⟩ := htargets i h session target sessions packets hi phase
    rw [phase] at howes
    refine hsent howes ?_ signals
    intro hsession
    exact ho.distinct hlen hx ht (hsession.trans hid.symm)
  | announced phase | joined phase | rejected phase | inserted phase | served phase | failed phase
  | fetched phase | forgot phase | unannounced phase | left phase =>
    rw [phase] at howes
    exact howes.elim

/-- The own channel loses a signal only when the task takes it. -/
lemma Acts.own_notify (ha : Acts cfg i h system action system') (hi : system.handlers[i]? = some h)
    (hi' : system'.handlers[i]? = some h') (hne : h.notify.items ≠ []) :
    h'.notify.items ≠ [] ∨ h'.phase = .woken := by
  have hsame : ∀ {phase : Phase T P} {handlers : List (Handler T P F)}, handlers[i]? = some h →
      (handlers.modify i (fun h => { h with phase }))[i]? = some h' → h'.notify.items ≠ [] := by
    intro phase handlers hold hnew
    rw [List.getElem?_modify,hold] at hnew
    simp only [Option.map_eq_map,Option.map_some,if_true] at hnew
    cases hnew
    exact hne
  have hsignal : ∀ {target : ℕ} {phase : Phase T P} {system₁ : System T P Q S M B F},
      Signals target system system₁ → (system₁.setPhase i phase).handlers[i]? = some h' →
      h'.notify.items ≠ [] := by
    intro target phase system₁ signals hnew
    obtain ⟨h₁,hi₁,hr⟩ := signals.receives hi
    obtain ⟨h₂,hi₂,hnotify,-⟩ := setPhase_notify i phase hi₁
    rw [hnew] at hi₂
    cases hi₂
    rw [hnotify]
    intro hnil
    have hpre := hr.signals
    rw [hnil,List.prefix_nil] at hpre
    exact hne hpre
  cases ha with
  | alone step =>
    obtain ⟨y,hy,he⟩ := update_handler.mp hi'
    rw [if_pos rfl] at he
    subst he
    obtain he | he := step.signals.1
    · exact .inl (he ▸ hne)
    · exact .inr he
  | inserted phase =>
    rw [update,List.getElem?_modify] at hi'
    change (fun a => _) <$> system.handlers[i]? = _ at hi'
    rw [hi] at hi'
    simp only [Option.map_eq_map,Option.map_some,if_true] at hi'
    cases hi'
    exact .inl hne
  | notified _ _ signals => exact .inl (hsignal signals hi')
  | resumed _ signals => exact .inl (hsignal signals hi')
  | announced | joined | rejected | served | failed | skipped | blocked | fetched | forgot
  | unannounced | left => exact .inl (hsame hi hi')

/-- A task that was alerted is so after the step, unless it is the one that fetches its packets. -/
lemma Acts.alerted (ha : Acts cfg i h system action system') (hi : system.handlers[i]? = some h)
    (hsenders : system.SendersExact) (htargets : system.Targets) (ho : system.Owned)
    (hlen : system.handlers.length ≤ 2^32) (hx : system.handlers[k]? = some x)
    (hx' : system'.handlers[k]? = some x') (hlive : x.phase.Live)
    (hfetch : k = i → h.phase ≠ .woken) (halert : system.Alerted x) : system'.Alerted x' := by
  have hf := ha.follows hi
  obtain ⟨y,hy,hid,hother,-⟩ := hf.back hx'
  rw [hx] at hy
  cases hy
  obtain hne | hwoken | ⟨j,y,hy,howes⟩ := halert
  · by_cases hk : k = i
    · subst hk
      rw [hi] at hx
      cases hx
      obtain hne | hwoken := ha.own_notify hi hx' hne
      · exact .inl hne
      · exact .inr (.inl hwoken)
    · refine .inl ?_
      intro hnil
      have hpre := (hother hk).signals
      rw [hnil,List.prefix_nil] at hpre
      exact hne hpre
  · by_cases hk : k = i
    · subst hk
      rw [hi] at hx
      cases hx
      exact absurd hwoken (hfetch rfl)
    · exact .inr (.inl ((hother hk).phase.trans hwoken))
  · by_cases hj : j = i
    · subst hj
      rw [hi] at hy
      cases hy
      obtain ⟨h',hi',hstill⟩ | ⟨x₁,hx₁,hne⟩ := ha.pays hi hsenders htargets ho hlen hx hlive howes
      · exact .inr (.inr ⟨j,h',hi',hid ▸ hstill⟩)
      · rw [hx'] at hx₁
        cases hx₁
        exact .inl hne
    · obtain ⟨y',hy',hr⟩ := hf.other j y hj hy
      refine .inr (.inr ⟨j,y',hy',?_⟩)
      rw [hr.phase,hid]
      exact howes

/-- What a step that does not fail leaves in the queue of a session: nothing, what was there, or
packets of which the task will notify the session. -/
lemma Acts.tx_cases (ha : Acts cfg i h system action system') (hi : system.handlers[i]? = some h)
    (ho : system.Owned) (hok : ¬ Fails (system,.task i action)) (t : ℕ) :
    system'.broker.tx t = [] ∨
    (system'.broker.tx t = system.broker.tx t ∧ (t = h.sessionId → h.phase ≠ .woken)) ∨
    ∃ h', system'.handlers[i]? = some h' ∧ h'.phase.Owes t := by
  have hc := ho.consistent
  have hsame : ∀ {phase : Phase T P}, h.phase = phase → phase ≠ .woken →
      system'.broker = system.broker → system'.broker.tx t = system.broker.tx t ∧
        (t = h.sessionId → h.phase ≠ .woken) :=
    fun he hw hb => ⟨by rw [hb],fun _ => he ▸ hw⟩
  cases ha with
  | alone step => exact .inr (.inl ⟨rfl,fun _ => step.signals.2.1⟩)
  | @joined currentTime broker phase call =>
    obtain ⟨e,hr⟩ | ⟨why,hr⟩ | ⟨b,hr,-,-,hb⟩ :=
      hc.registerNewSession h.sessionId cfg.defaultKeepAliveSecs currentTime
    · rw [hr] at call; cases call
    · rw [hr] at call; cases call
    · rw [hr] at call
      cases call
      rw [setPhase_broker,hb.tx_eq,SessionMap.add_tx]
      split_ifs with ht
      · exact .inl rfl
      · exact .inr (.inl ⟨(hc.tx_eq t).symm,fun he => absurd he ht⟩)
  | @rejected currentTime error broker phase call =>
    obtain ⟨e,hr⟩ | ⟨why,hr⟩ | ⟨b,hr,-⟩ :=
      hc.registerNewSession h.sessionId cfg.defaultKeepAliveSecs currentTime
    · rw [hr] at call
      cases call
      exact .inr (.inl (hsame phase (by simp) rfl))
    · rw [hr] at call; cases call
    · rw [hr] at call; cases call
  | @served currentTime packet sessions packets broker phase call =>
    obtain hnil | hmem := hc.served_tx call t
    · exact .inl hnil
    · refine .inr (.inr ⟨_,update_handler.mpr ⟨h,hi,rfl⟩,?_⟩)
      rw [if_pos rfl]
      exact hmem
  | @failed currentTime packet error broker phase call =>
    have hs := hc.serve (ε := Empty) push h.sessionId packet currentTime
    by_cases hmem : h.sessionId ∈ system.broker.sessions.ids
    · refine absurd ?_ hok
      simp only [Fails,processing,arriving,hi,Option.bind_some,phase,Option.map_some,call]
      exact hmem
    · rw [call] at hs
      cases hs with
      | absent => exact .inr (.inl (hsame phase (by simp) rfl))
      | failed mem => exact absurd mem hmem
  | @fetched packets broker phase call =>
    obtain ⟨b,hd,-,hb,-⟩ := hc.dequeueAll (ε := Empty) push h.sessionId
    rw [hd] at call
    cases call
    rw [setPhase_broker,hb.tx_eq,SessionMap.setTx_tx]
    split_ifs with ht
    · exact .inl rfl
    · exact .inr (.inl ⟨(hc.tx_eq t).symm,fun he => absurd he ht⟩)
  | left phase =>
    rw [setPhase_broker,(hc.removeSession h.sessionId).tx_eq,SessionMap.remove_tx]
    split_ifs with ht
    · exact .inl rfl
    · exact .inr (.inl ⟨(hc.tx_eq t).symm,fun he => absurd he ht⟩)
  | notified phase _ signals => exact .inr (.inl (hsame phase (by simp) signals.shared.1))
  | resumed phase signals => exact .inr (.inl (hsame phase (by simp) signals.shared.1))
  | announced phase | inserted phase | skipped phase | blocked phase | forgot phase
  | unannounced phase => exact .inr (.inl (hsame phase (by simp) rfl))

/-- A session has nothing to send when it is registered. -/
lemma Acts.tx_joined (ha : Acts cfg i h system action system') (ho : system.Owned)
    (hphase : h.phase = .announced) (hi' : system'.handlers[i]? = some h')
    (hlive : h'.phase.Live) : system'.broker.tx h.sessionId = [] := by
  cases ha with
  | alone step =>
    have hl := step.moves.2.1
    rw [hphase] at hl
    exact hl.elim
  | @joined currentTime broker _ call =>
    obtain ⟨e,hr⟩ | ⟨why,hr⟩ | ⟨b,hr,-,-,hb⟩ :=
      ho.consistent.registerNewSession h.sessionId cfg.defaultKeepAliveSecs currentTime
    · rw [hr] at call; cases call
    · rw [hr] at call; cases call
    · rw [hr] at call
      cases call
      rw [setPhase_broker,hb.tx_eq,SessionMap.add_tx,if_pos rfl]
  | rejected =>
    obtain ⟨y,-,he⟩ := update_handler.mp hi'
    rw [if_pos rfl] at he
    subst he
    obtain he | he := hlive
    · cases he
    · exact he.elim
  | announced phase | inserted phase | served phase | failed phase | skipped phase | notified phase
  | blocked phase | resumed phase | fetched phase | forgot phase | unannounced phase | left phase =>
    rw [hphase] at phase
    cases phase

lemma NoneForgotten.acts (hn : system.NoneForgotten) (hsenders : system.SendersExact)
    (htargets : system.Targets) (ho : system.Owned) (hlen : system.handlers.length ≤ 2^32)
    (hi : system.handlers[i]? = some h) (ha : Acts cfg i h system action system')
    (hok : ¬ Fails (system,.task i action)) : system'.NoneForgotten := by
  intro k x' hx' hlive' htx
  obtain ⟨x,hx,hid,hother,hself⟩ := (ha.follows hi).back hx'
  rw [hid] at htx
  obtain hnil | ⟨hsame,hfetch⟩ | ⟨h',hi',howes⟩ := ha.tx_cases hi ho hok x.sessionId
  · exact absurd hnil htx
  · have hown : k = i → x = h := by
      rintro rfl
      rw [hi] at hx
      cases hx
      rfl
    have hlive : x.phase.Live := by
      by_cases hk : k = i
      · obtain hl | hann := (hself hk).live hlive'
        · exact hl
        · rw [hown hk] at hann htx
          subst hk
          exact absurd (ha.tx_joined ho hann hx' hlive') htx
      · exact (hother hk).phase ▸ hlive'
    rw [hsame] at htx
    exact ha.alerted hi hsenders htargets ho hlen hx hx' hlive
      (fun hk => hfetch (by rw [hown hk])) (hn k x hx hlive htx)
  · exact .inr (.inr ⟨i,h',hi',hid ▸ howes⟩)

/-- Processing that succeeded leaves nobody forgotten, whatever was before. -/
lemma noneForgotten_served (hc : system.broker.Consistent system.broker.sessions.toMap)
    (hi : system.handlers[i]? = some h) {packet : Packet T P} {currentTime : ℕ} {sessions : List ℕ}
    {packets : List (Packet T P)} {broker : PicoBroker T P Q S M B}
    (call : (PicoBroker.serve push h.sessionId packet currentTime system.broker :
      Outcome _ Empty _) = .ok (.ok (sessions,packets)) broker) :
    (setPhase i (.notifying sessions packets) { system with broker }).NoneForgotten := by
  intro k x _ _ htx
  obtain hnil | hmem := hc.served_tx call x.sessionId
  · exact absurd hnil htx
  · refine .inr (.inr ⟨i,_,update_handler.mpr ⟨h,hi,rfl⟩,?_⟩)
    rw [if_pos rfl]
    exact hmem

/-- A task starts to wait for room only for the sender it has found. -/
lemma Acts.targets (ha : Acts cfg i h system action system') (hi : system.handlers[i]? = some h)
    (hsenders : system.SendersExact) (htargets : system.Targets) : system'.Targets := by
  have hf := ha.follows hi
  have hfollow : ∀ {target session : ℕ} {t : Handler T P F}, system.handlers[target]? = some t →
      t.sessionId = session → ∃ t', system'.handlers[target]? = some t' ∧ t'.sessionId = session := by
    intro target session t ht hid
    by_cases hk : target = i
    · subst hk
      obtain ⟨t',ht',hid',-⟩ := hf.self t ht
      exact ⟨t',ht',hid'.trans hid⟩
    · obtain ⟨t',ht',hr⟩ := hf.other target t hk ht
      exact ⟨t',ht',hr.sessionId.trans hid⟩
  intro k x' session target sessions packets hx' hphase'
  obtain ⟨x,hx,-,hother,-⟩ := hf.back hx'
  by_cases hk : k = i
  · subst hk
    have hheld : ∀ {f : Handler T P F → Handler T P F} {handlers : List (Handler T P F)},
        (handlers.modify k f)[k]? = some x' → (∀ y, (f y).phase.held = none) → False := by
      intro f handlers hmod hnone
      rw [List.getElem?_modify] at hmod
      obtain ⟨y,-,he⟩ := Option.map_eq_some_iff.mp hmod
      rw [if_pos rfl] at he
      have hn := hnone y
      rw [he,hphase'] at hn
      cases hn
    cases ha with
    | alone step =>
      exact (hheld hx' (fun _ => step.signals.2.2.2)).elim
    | @blocked session' target' sessions' packets' phase sender full =>
      obtain ⟨y,-,he⟩ := update_handler.mp hx'
      rw [if_pos rfl] at he
      subst he
      cases hphase'
      obtain ⟨t,ht,hid,-⟩ := (hsenders session target).mp sender
      exact hfollow ht hid
    | inserted =>
      refine (hheld hx' (fun _ => ?_)).elim
      split_ifs <;> rfl
    | announced | joined | rejected | served | failed | skipped | notified | resumed | fetched
    | forgot | unannounced | left => exact (hheld hx' (fun _ => rfl)).elim
  · rw [(hother hk).phase] at hphase'
    obtain ⟨t,ht,hid⟩ := htargets k x session target sessions packets hx hphase'
    exact hfollow ht hid

/-- What is known after a run: who owns what, and that nobody is forgotten as long as every processing
that failed was followed by one that succeeded. -/
structure Watched (hist : List (System T P Q S M B F × Event)) (system : System T P Q S M B F) :
    Prop where
  owned : system.Owned
  senders : system.handlers.length ≤ 2^32 → system.SendersExact
  targets : system.handlers.length ≤ 2^32 → system.Targets
  noneForgotten : system.handlers.length ≤ 2^32 → Mended Fails Succeeds hist → system.NoneForgotten

lemma watched_new : Watched [] (new : System T P Q S M B F) := by
  refine ⟨owned_new,fun _ s j => ?_,fun _ k x session target sessions packets hx => ?_,
    fun _ _ k x hx => ?_⟩
  · exact iff_of_false (by simp [new]) (by simp [new])
  · cases hx
  · cases hx

lemma Watched.next {hist : List (System T P Q S M B F × Event)} (hw : Watched hist system)
    {event : Event} (hn : system.next cfg event = some system') :
    Watched (hist ++ [(system,event)]) system' := by
  have hle := length_le_of_next hn
  refine ⟨hw.owned.next hn,fun hlen => (hw.senders (hle.trans hlen)).next hw.owned (hle.trans hlen) hn,
    fun hlen => ?_,fun hlen hm => ?_⟩
  · have htargets := hw.targets (hle.trans hlen)
    cases steps_of_next hn with
    | acted handler acts => exact acts.targets handler (hw.senders (hle.trans hlen)) htargets
    | cleaned => exact htargets
    | accepted secs chunks =>
      intro k x session target sessions packets hx hphase
      rw [List.getElem?_append] at hx
      split_ifs at hx with hk
      · obtain ⟨t,ht,hid⟩ := htargets k x session target sessions packets hx hphase
        refine ⟨t,?_,hid⟩
        rw [List.getElem?_append_left (List.getElem?_eq_some_iff.mp ht).1]
        exact ht
      · obtain ⟨_,rfl⟩ := List.getElem?_eq_some_iff.mp hx
        rw [List.getElem_singleton] at hphase
        cases hphase
  · have hlen' := hle.trans hlen
    obtain hgood | ⟨hok,hm⟩ := hm.of_concat
    · obtain ⟨i,h,packet,currentTime,sessions,packets,broker,hi,call,rfl⟩ := hgood.next hn
      exact noneForgotten_served hw.owned.consistent hi call
    · have hnone := hw.noneForgotten hlen' hm
      cases steps_of_next hn with
      | acted handler acts =>
        exact hnone.acts (hw.senders hlen') (hw.targets hlen') hw.owned hlen' handler acts hok
      | accepted secs chunks =>
        intro k x hx hlive htx
        rw [List.getElem?_append] at hx
        split_ifs at hx with hk
        · obtain hne | hwoken | ⟨j,y,hy,howes⟩ := hnone k x hx hlive htx
          · exact .inl hne
          · exact .inr (.inl hwoken)
          · refine .inr (.inr ⟨j,y,?_,howes⟩)
            rw [List.getElem?_append_left (List.getElem?_eq_some_iff.mp hy).1]
            exact hy
        · obtain ⟨_,rfl⟩ := List.getElem?_eq_some_iff.mp hx
          rw [List.getElem_singleton] at hlive
          obtain he | he := hlive
          · cases he
          · exact he.elim
      | cleaned currentTime =>
        intro k x hx hlive htx
        obtain hnil | hsame := hw.owned.consistent.tx_cleaned currentTime x.sessionId
        · exact absurd hnil htx
        · exact hnone k x hx hlive (hsame ▸ htx)

/-- No wake-up is lost: after any run in which every processing that failed was followed by one that
succeeded, a task in the loop whose session has packets to send has a notification in its channel,
waits for the lock to fetch them, or is on the list of a task that is still sending notifications. -/
theorem no_lost_wakeup {hist : List (System T P Q S M B F × Event)} (hr : Run (next cfg) new hist system)
    (hlen : system.handlers.length ≤ 2^32) (hm : Mended Fails Succeeds hist) :
    system.NoneForgotten :=
  (hr.history (H := Watched) watched_new (fun _ _ _ _ _ hw hn => hw.next hn)).noneForgotten hlen hm

/-- The bytes of a SUBSCRIBE to the topic `a` and of a PUBLISH to it that asks for an acknowledgement. -/
def subscribeBytes : Bytes := [0x82,0x06,0x00,0x07,0x00,0x01,0x61,0x00]
def publishBytes : Bytes := [0x32,0x06,0x00,0x01,0x61,0x00,0x05,0x68]

/-- Two clients subscribe to the topic `a`, and the second one publishes to it. Its own queue has one
place, which the copy of its PUBLISH takes from the PUBACK. -/
def crowdedEvents : List Event :=
  arrival 0 [subscribeBytes] ++ arrival 1 [subscribeBytes,publishBytes] ++
    [.task 0 (.read 1),.task 0 (.serve 1),.task 0 .notify,.task 0 .notify,.task 0 .send,.task 0 .send,
      .task 0 .wake,.task 0 .fetch,.task 0 .send,.task 1 (.read 2),.task 1 (.serve 2),.task 1 .notify,
      .task 1 .notify,.task 1 .send,.task 1 .send,.task 1 .wake,.task 1 .fetch,.task 1 .send]

def crowded : System 1 1 1 2 1 2 2 := (exec (next hostConfig) new crowdedEvents).get (by decide)

def crowdedTrace : List (System 1 1 1 2 1 2 2 × Event) := trace (next hostConfig) new crowdedEvents

lemma crowded_run : Run (next hostConfig) new crowdedTrace crowded :=
  run_trace (Option.some_get (by decide)).symm

theorem no_lost_wakeup_crowded : crowded.NoneForgotten :=
  no_lost_wakeup crowded_run (by decide) (mended_of_forall_not (by decide))

/-- The processing of the PUBLISH fails, and nobody is left to notify the two subscribers. -/
example : (exec (next hostConfig) crowded [.task 1 (.read 3),.task 1 (.serve 3)]).map (fun system =>
      system.handlers.map (fun h => (h.phase,h.notify.items,(system.broker.tx h.sessionId).length))) =
    some [(.selecting,[],1),(.notifying [] [],[],1)] := by decide

end System

end TokioServer

end Picobroker
