import Picobroker.Server.Wakeups

/-! Tasks of the Tokio server that wait for each other: what a task can wait for, and that tasks which
wait for nobody but themselves do so forever. -/
namespace Picobroker
open Rust

variable {T P Q S M B F : ℕ}

namespace TokioServer

/-- What is up to the client: its socket takes bytes, or the write fails. -/
def Action.Writes : Action → Prop
  | .write _ | .flush | .writeFails => True
  | _ => False

namespace Handler

variable {cfg : Config} {h h' : Handler T P F} {action : Action}

/-- A channel that is full takes no further signal. -/
lemma Receives.full (hr : h.Receives h') (hf : h.notify.Full) : h'.notify.Full := by
  have hle := hr.signals.length_le
  have hcap := h'.notify.length_le
  rw [Channel.Full] at hf ⊢
  omega

/-- A task that sends can only go on with that. -/
lemma Steps.not_full (hs : h.Steps cfg action h') {packet : Packet T P} {packets : List (Packet T P)}
    (phase : h.phase = .sending (packet::packets)) {frame : Bytes} {u : Unit}
    (encoded : encodeFrame packet = .ok frame u) : ¬ h.frames.Full := by
  cases hs with
  | @queued packet' packets' frame' u' frames phase' encode items =>
    have hle := frames.length_le
    rw [items,List.length_append,List.length_singleton] at hle
    rw [Channel.Full]
    omega
  | refused phase' encode | sendPanicked phase' encode =>
    rw [phase] at phase'
    cases phase'
    rw [encoded] at encode
    cases encode
  | absorbed phase' | received phase' | ended phase' | readPanicked phase' | informed phase'
  | woken phase' | finished phase' | picked phase' | wrote phase' | flushed phase' | broken phase'
  | expired phase' | stayed phase' =>
    rw [phase] at phase'
    cases phase'

/-- Of its own, a task that writes does nothing else. -/
lemma Steps.writes (hs : h.Steps cfg action h') {rest : Bytes} (phase : h.phase = .writing rest) :
    action.Writes := by
  cases hs with
  | wrote | flushed | broken => trivial
  | absorbed phase' | received phase' | ended phase' | readPanicked phase' | informed phase'
  | woken phase' | finished phase' | queued phase' | refused phase' | sendPanicked phase' | picked phase'
  | expired phase' | stayed phase' =>
    rw [phase] at phase'
    cases phase'

end Handler

namespace System

variable {cfg : Config} {system system' : System T P Q S M B F} {i j : ℕ} {h h' : Handler T P F}
  {action : Action} {hist : List (System T P Q S M B F × Event)}

/-- What keeps the task `i` from its next step, and which task can change that. -/
inductive WaitsFor (cfg : Config) (system : System T P Q S M B F) (i j : ℕ) : Prop
  /-- for room in the notification channel of the task `j`, which only `j` can make -/
  | signal {h t : Handler T P F} {session : ℕ} {sessions : List ℕ} {packets : List (Packet T P)}
      (handler : system.handlers[i]? = some h) (phase : h.phase = .awaiting session j sessions packets)
      (target : system.handlers[j]? = some t) (alive : ¬ t.phase.Ended) (full : t.notify.Full)
  /-- for room in its own frame channel, which it empties itself -/
  | frame {h : Handler T P F} {packet : Packet T P} {packets : List (Packet T P)} {frame : Bytes}
      {u : Unit} (own : j = i) (handler : system.handlers[i]? = some h)
      (phase : h.phase = .sending (packet::packets)) (encoded : encodeFrame packet = .ok frame u)
      (full : h.frames.Full)
  /-- for a lock of the map of senders, which the task `j` holds while it waits -/
  | entry {h t : Handler T P F} {session : ℕ} (handler : system.handlers[i]? = some h)
      (phase : h.phase = .starting ∨ h.phase = .forgotten) (holder : system.handlers[j]? = some t)
      (held : session ∈ t.phase.held) (shard : cfg.shard session = cfg.shard h.sessionId)

/-- A task that sends or writes makes steps of its own only. -/
lemma Acts.steps (ha : Acts cfg i h system action system')
    (hp : (∃ packets, h.phase = .sending packets) ∨ ∃ rest, h.phase = .writing rest) :
    ∃ h', h.Steps cfg action h' := by
  cases ha with
  | alone step => exact ⟨_,step⟩
  | announced phase | joined phase | rejected phase | inserted phase | served phase | failed phase
  | skipped phase | notified phase | blocked phase | resumed phase | fetched phase | forgot phase
  | unannounced phase | left phase =>
    rw [phase] at hp
    obtain ⟨packets,he⟩ | ⟨rest,he⟩ := hp
    · cases he
    · cases he

/-- A task that waits makes no step. -/
lemma WaitsFor.stuck (hw : system.WaitsFor cfg i j) (action : Action) :
    system.next cfg (.task i action) = none := by
  by_contra hne
  obtain ⟨system',hn⟩ := Option.ne_none_iff_exists'.mp hne
  cases steps_of_next hn with
  | @acted _ _ y _ handler' acts =>
  cases hw with
  | @signal h t session sessions packets handler phase target alive full =>
    rw [handler] at handler'
    cases handler'
    cases acts with
    | alone step =>
      refine step.signals.2.2.1 session ?_
      rw [phase]
      exact .inl rfl
    | resumed phase' signals =>
      rw [phase] at phase'
      cases phase'
      cases signals with
      | gone gone => exact alive (gone t target)
      | @queued t' notify receiver _ items =>
        rw [target] at receiver
        cases receiver
        have hle := notify.length_le
        rw [items,List.length_append,List.length_singleton,show t.notify.items.length = 8 from full]
          at hle
        omega
    | announced phase' | joined phase' | rejected phase' | inserted phase' | served phase'
    | failed phase' | skipped phase' | notified phase' | blocked phase' | fetched phase'
    | forgot phase' | unannounced phase' | left phase' =>
      rw [phase] at phase'
      cases phase'
  | @frame h packet packets frame u own handler phase encoded full =>
    rw [handler] at handler'
    cases handler'
    obtain ⟨h',step⟩ := acts.steps (.inl ⟨_,phase⟩)
    exact step.not_full phase encoded full
  | @entry h t session handler phase holder held shard =>
    have hheld : ¬ system.Unheld cfg h.sessionId :=
      fun hu => hu t (List.mem_of_getElem? holder) session held shard
    rw [handler] at handler'
    cases handler'
    cases acts with
    | alone step =>
      have hl := step.moves.2.1
      obtain phase | phase := phase
      · rw [phase] at hl
        exact hl
      · rw [phase] at hl
        exact hl
    | announced _ unheld => exact hheld unheld
    | unannounced _ unheld => exact hheld unheld
    | joined phase' | rejected phase' | inserted phase' | served phase' | failed phase' | skipped phase'
    | notified phase' | blocked phase' | resumed phase' | fetched phase' | forgot phase' | left phase' =>
      rw [phase'] at phase
      obtain phase | phase := phase <;> cases phase

/-- A task that writes to its client does nothing else. -/
lemma next_writing (hi : system.handlers[i]? = some h) {rest : Bytes} (phase : h.phase = .writing rest)
    (ha : ¬ action.Writes) : system.next cfg (.task i action) = none := by
  by_contra hne
  obtain ⟨system',hn⟩ := Option.ne_none_iff_exists'.mp hne
  cases steps_of_next hn with
  | @acted _ _ y _ handler' acts =>
    rw [hi] at handler'
    cases handler'
    obtain ⟨h',step⟩ := acts.steps (.inr ⟨rest,phase⟩)
    exact ha (step.writes phase)

/-- The own broker calls of a task return. -/
lemma Owned.calls_return (ho : system.Owned) (hQ : Q ≤ 65535) (hS : S ≤ 65535) (hM : M ≤ 65535)
    (hB : B ≤ 65535) (s : ℕ) :
    (∀ keepAliveSecs currentTime why,
      system.broker.registerNewSession s keepAliveSecs currentTime ≠ .abort why) ∧
    (∀ packet currentTime why, (PicoBroker.serve push s packet currentTime system.broker :
      Outcome _ Empty _) ≠ .abort why) := by
  have hc := ho.consistent
  constructor
  · intro keepAliveSecs currentTime why he
    have hj := SessionRegistry.registerNewSession_joins hc.shows s keepAliveSecs currentTime
    rw [PicoBroker.registerNewSession,PicoBroker.onSessions,Proc.zoom_apply] at he
    generalize SessionRegistry.registerNewSession s keepAliveSecs currentTime
      system.broker.sessions = o at hj he
    cases hj with
    | overflow _ capacity => omega
    | full => cases he
    | «exists» => cases he
    | joined => cases he
  · intro packet currentTime why he
    have hs := hc.serve (ε := Empty) push s packet currentTime
    rw [he] at hs
    cases hs with
    | panicked capacity => omega

/-- A task that can at most write waits for another one, or for its client. -/
lemma Owned.waits (ho : system.Owned) (hQ : Q ≤ 65535) (hS : S ≤ 65535) (hM : M ≤ 65535)
    (hB : B ≤ 65535) (hi : system.handlers[i]? = some h) (halive : ¬ h.phase.Ended)
    (hstuck : ∀ action, ¬ action.Writes → system.next cfg (.task i action) = none) :
    (∃ j, system.WaitsFor cfg i j) ∨ ∃ rest, h.phase = .writing rest := by
  have hact : ∀ action, ¬ action.Writes → system.act cfg i h action = none := by
    intro action ha
    have hs := hstuck action ha
    rwa [System.next,hi,Option.bind_some] at hs
  obtain ⟨hregister,hserve⟩ := ho.calls_return hQ hS hM hB h.sessionId
  have hentry : (h.phase = .starting ∨ h.phase = .forgotten) → ¬ system.Unheld cfg h.sessionId →
      ∃ j, system.WaitsFor cfg i j := by
    intro phase hu
    simp only [Unheld,not_forall,not_not] at hu
    obtain ⟨t,ht,session,held,shard⟩ := hu
    obtain ⟨j,hj⟩ := List.mem_iff_getElem?.mp ht
    exact ⟨j,.entry hi phase hj held shard⟩
  cases phase : h.phase with
  | starting =>
    refine .inl (hentry (.inl phase) (fun hu => ?_))
    have hs := hact .announce not_false
    simp [act,phase,hu] at hs
  | announced =>
    have hs := hact (.register 0) not_false
    simp only [act,phase] at hs
    split at hs
    · cases hs
    · cases hs
    next why call => exact absurd call (hregister _ _ why)
  | joined =>
    have hs := hact (.insert 0) not_false
    simp [act,phase] at hs
  | selecting =>
    have hs := hact (.timeout 0) not_false
    simp [act,Handler.step,phase] at hs
  | received packet =>
    have hs := hact (.serve 0) not_false
    have hr := hserve packet 0
    simp only [act,phase] at hs
    split at hs
    · cases hs
    · cases hs
    next hnot hnot' =>
      cases call : (PicoBroker.serve push h.sessionId packet 0 system.broker : Outcome _ Empty _) with
      | ok result broker =>
        obtain error | ⟨sessions,packets⟩ := result
        · exact absurd call (hnot' _ _)
        · exact absurd call (hnot _ _ _)
      | err e broker => cases e
      | abort why => exact absurd call (hr why)
  | notifying sessions packets =>
    have hs := hact .notify not_false
    cases sessions with
    | nil => simp [act,Handler.step,phase] at hs
    | cons session sessions =>
      simp only [act,phase] at hs
      split at hs
      · cases hs
      · split at hs <;> cases hs
  | awaiting session target sessions packets =>
    have hs := hact .resume not_false
    simp only [act,phase,Option.map_eq_none_iff] at hs
    obtain ⟨t,ht,alive,full⟩ := trySignal_eq_none.mp hs
    exact .inl ⟨target,.signal hi phase ht alive full⟩
  | woken =>
    have hs := hact .fetch not_false
    obtain ⟨b,hd,-⟩ := ho.consistent.dequeueAll (ε := Empty) push h.sessionId
    simp [act,phase,hd] at hs
  | sending packets =>
    have hs := hact .send not_false
    cases packets with
    | nil => simp [act,Handler.step,phase] at hs
    | cons packet packets =>
      cases encoded : encodeFrame packet with
      | ok frame u =>
        simp only [act,Handler.step,phase,encoded,Option.map_map,Option.map_eq_none_iff] at hs
        exact .inl ⟨i,.frame rfl hi phase encoded (Channel.trySend_eq_none.mp hs)⟩
      | err e u => simp [act,Handler.step,phase,encoded] at hs
      | abort why => simp [act,Handler.step,phase,encoded] at hs
  | writing rest => exact .inr ⟨rest,rfl⟩
  | closing =>
    have hs := hact .forget not_false
    simp [act,phase] at hs
  | forgotten =>
    refine .inl (hentry (.inr phase) (fun hu => ?_))
    have hs := hact .unannounce not_false
    simp [act,phase,hu] at hs
  | unannounced =>
    have hs := hact .leave not_false
    simp [act,phase] at hs
  | closed | rejected | panicked =>
    rw [phase] at halive
    exact absurd trivial halive

/-- A task that writes can make a step: its client takes a byte of what is left, or it flushes. -/
lemma next_write (cfg : Config) (hi : system.handlers[i]? = some h) {rest : Bytes}
    (phase : h.phase = .writing rest) : ∃ action, system.next cfg (.task i action) ≠ none := by
  cases rest with
  | nil =>
    refine ⟨.flush,?_⟩
    simp [System.next,hi,act,Handler.step,phase]
  | cons byte rest =>
    refine ⟨.write 1,?_⟩
    simp [System.next,hi,act,Handler.step,phase]

/-- A task that cannot make a step waits for another one. -/
lemma Owned.waits_of_stuck (ho : system.Owned) (hQ : Q ≤ 65535) (hS : S ≤ 65535) (hM : M ≤ 65535)
    (hB : B ≤ 65535) (hi : system.handlers[i]? = some h) (halive : ¬ h.phase.Ended)
    (hstuck : ∀ action, system.next cfg (.task i action) = none) : ∃ j, system.WaitsFor cfg i j := by
  obtain hw | ⟨rest,phase⟩ := ho.waits hQ hS hM hB hi halive (fun action _ => hstuck action)
  · exact hw
  · obtain ⟨action,ha⟩ := next_write cfg hi phase
    exact absurd (hstuck action) ha

/-- The frame channel has one place. A client sends two PINGREQ before the first answer is written. -/
def jammedEvents : List Event :=
  arrival 0 [[0xC0,0x00],[0xC0,0x00]] ++ [.task 0 (.read 1),.task 0 (.serve 1),.task 0 .notify,
    .task 0 .notify,.task 0 .send,.task 0 .send,.task 0 (.read 2),.task 0 (.serve 2),.task 0 .notify,
    .task 0 .notify]

def jammed : System 1 1 1 1 1 1 1 := (exec (next hostConfig) new jammedEvents).get (by decide)
def jammedTask : Handler 1 1 1 := jammed.handlers.get ⟨0,by decide⟩

lemma jammed_reachable : Reachable (next hostConfig) new jammed :=
  reachable_of_exec (Option.some_get (by decide)).symm

lemma jammed_waits : jammed.WaitsFor hostConfig 0 0 := by
  have hphase : jammedTask.phase = .sending (.pingResp {}::[]) := by decide
  have hframe : encodeFrame (.pingResp {} : Packet 1 1) = .ok [0xD0,0x00] () := by decide
  exact .frame rfl (List.getElem?_eq_getElem (by decide)) hphase hframe (by decide)

/-- Everyone in the set waits for someone in it. -/
def Knot (cfg : Config) (D : Set ℕ) (system : System T P Q S M B F) : Prop :=
  ∀ i ∈ D, ∃ j ∈ D, system.WaitsFor cfg i j

/-- The task makes no step in the run. -/
def Still (i : ℕ) (hist : List (System T P Q S M B F × Event)) : Prop :=
  ∀ e ∈ hist, ∀ action, e.2 ≠ .task i action

/-- The tasks are where they were, and got signals at most. -/
def Kept (D : Set ℕ) (system system' : System T P Q S M B F) : Prop :=
  ∀ i ∈ D, ∀ h, system.handlers[i]? = some h → ∃ h', system'.handlers[i]? = some h' ∧ h.Receives h'

variable {D : Set ℕ}

lemma WaitsFor.kept (hw : system.WaitsFor cfg i j) (hi : i ∈ D) (hj : j ∈ D)
    (hk : Kept D system system') : system'.WaitsFor cfg i j := by
  cases hw with
  | @signal h t session sessions packets handler phase target alive full =>
    obtain ⟨h',hi',hrh⟩ := hk i hi h handler
    obtain ⟨t',ht',hrt⟩ := hk j hj t target
    exact .signal hi' (hrh.phase.trans phase) ht' (by rwa [hrt.phase]) (hrt.full full)
  | @frame h packet packets frame u own handler phase encoded full =>
    obtain ⟨h',hi',hrh⟩ := hk i hi h handler
    refine .frame own hi' (hrh.phase.trans phase) encoded ?_
    rw [hrh.same]
    exact full
  | @entry h t session handler phase holder held shard =>
    obtain ⟨h',hi',hrh⟩ := hk i hi h handler
    obtain ⟨t',ht',hrt⟩ := hk j hj t holder
    refine .entry hi' ?_ ht' (by rwa [hrt.phase]) (by rwa [hrh.sessionId])
    rwa [hrh.phase]

/-- A step of others leaves the tasks of a knot where they are. -/
lemma Knot.kept (hk : system.Knot cfg D) {event : Event} (hn : system.next cfg event = some system') :
    (∀ i ∈ D, ∀ action, event ≠ .task i action) ∧ Kept D system system' := by
  have hnot : ∀ i ∈ D, ∀ action, event ≠ .task i action := by
    rintro i hi action rfl
    obtain ⟨j,-,hw⟩ := hk i hi
    rw [hw.stuck action] at hn
    cases hn
  refine ⟨hnot,?_⟩
  intro k hkD x hx
  cases steps_of_next hn with
  | @acted i action h _ handler acts =>
    have hne : k ≠ i := by
      rintro rfl
      exact hnot k hkD action rfl
    exact (acts.follows handler).other k x hne hx
  | accepted =>
    refine ⟨x,?_,.refl x⟩
    rw [List.getElem?_append_left (List.getElem?_eq_some_iff.mp hx).1]
    exact hx
  | cleaned => exact ⟨x,hx,.refl x⟩

lemma Knot.next (hk : system.Knot cfg D) {event : Event} (hn : system.next cfg event = some system') :
    system'.Knot cfg D := by
  intro i hi
  obtain ⟨j,hj,hw⟩ := hk i hi
  exact ⟨j,hj,hw.kept hi hj (hk.kept hn).2⟩

/-- A knot is for ever: whatever the others do, the cleanup included, no task of it makes a step again,
and each stays where it is with what it holds. -/
theorem knot_forever (hk : system.Knot cfg D) (hr : Run (next cfg) system hist system') :
    system'.Knot cfg D ∧ (∀ i ∈ D, Still i hist) ∧ Kept D system system' := by
  have hall : ∀ {a b : System T P Q S M B F} {h : List (System T P Q S M B F × Event)},
      Run (next cfg) a h b → a.Knot cfg D → b.Knot cfg D ∧
        (∀ i ∈ D, Still i h) ∧ Kept D a b := by
    intro a b h hrun ha
    induction hrun with
    | nil a =>
      exact ⟨ha,fun i _ e he => (List.not_mem_nil he).elim,fun i _ x hx => ⟨x,hx,.refl x⟩⟩
    | cons head tail ih =>
      obtain ⟨hnot,hkept⟩ := ha.kept head
      obtain ⟨hb,hrest,hkept'⟩ := ih (ha.next head)
      refine ⟨hb,?_,?_⟩
      · intro i hi e he
        obtain rfl | he := List.mem_cons.mp he
        · exact hnot i hi
        · exact hrest i hi e he
      · intro i hi x hx
        obtain ⟨x',hx',hrx⟩ := hkept i hi x hx
        obtain ⟨x'',hx'',hrx'⟩ := hkept' i hi x' hx'
        refine ⟨x'',hx'',?_,hrx.signals.trans hrx'.signals⟩
        rw [hrx'.same,hrx.same]
  exact hall hr hk

/-- Each of two clients subscribes to a topic, and publishes to that of the other one. The first one also
sends PINGREQ, until both notification channels are full of the signals of its task. -/
def secondSubscribe : Bytes := [0x82,0x06,0x00,0x07,0x00,0x01,0x62,0x00]
def toFirst : Bytes := [0x30,0x04,0x00,0x01,0x61,0x68]
def toSecond : Bytes := [0x30,0x04,0x00,0x01,0x62,0x68]
def greeting : List Event :=
  [.task 0 (.read 1),.task 0 (.serve 1),.task 0 .notify,.task 0 .notify,.task 0 .send,.task 0 .send,
    .task 1 (.read 1),.task 1 (.serve 1),.task 1 .notify,.task 1 .notify,.task 1 .send,.task 1 .send,
    .task 0 (.read 1),.task 0 (.serve 1),.task 0 .notify,.task 0 .notify,.task 0 .send]
def pinging : List Event := [.task 0 (.read 1),.task 0 (.serve 1),.task 0 .notify,.task 0 .notify,
  .task 0 .notify,.task 0 .send,.task 0 .send]
def blocking : List Event := [.task 0 (.read 1),.task 0 (.serve 1),.task 0 .notify,.task 0 .notify,
  .task 1 (.read 1),.task 1 (.serve 1),.task 1 .notify]
def knottedEvents : List Event :=
  arrival 0 ([subscribeBytes,toSecond] ++ List.replicate 7 [0xC0,0x00]) ++
    arrival 1 [secondSubscribe,toFirst] ++ greeting ++ (List.replicate 6 pinging).flatten ++ blocking

def knotted : System 1 1 1 2 2 2 7 := (exec (next hostConfig) new knottedEvents).get (by decide +kernel)
def knottedFirst : Handler 1 1 7 := knotted.handlers.get ⟨0,by decide +kernel⟩
def knottedSecond : Handler 1 1 7 := knotted.handlers.get ⟨1,by decide +kernel⟩

lemma knotted_knot : knotted.Knot hostConfig {0,1} := by
  have hfirst : knotted.handlers[0]? = some knottedFirst := List.getElem?_eq_getElem (by decide +kernel)
  have hsecond : knotted.handlers[1]? = some knottedSecond :=
    List.getElem?_eq_getElem (by decide +kernel)
  have hphase : knottedFirst.phase = .awaiting 21474836481 1 [] [.pingResp {}] := by decide +kernel
  have hphase' : knottedSecond.phase = .awaiting 21474836480 0 [21474836481]
      [.publish ⟨(HeaplessString.tryFrom [0x62]).getD .new,none,
        (HeaplessVec.collect [0x68]).getD .new,.atMostOnce,false,false⟩] := by decide +kernel
  rintro i (rfl | rfl)
  · exact ⟨1,.inr rfl,.signal hfirst hphase hsecond (by decide +kernel) (by decide +kernel)⟩
  · exact ⟨0,.inl rfl,.signal hsecond hphase' hfirst (by decide +kernel) (by decide +kernel)⟩

/-- The cleanup removes the sessions of both, and another client comes. -/
def aroundEvents : List Event := .cleanup 1000000000000 :: arrival 2 []
def around : System 1 1 1 2 2 2 7 :=
  (exec (next hostConfig) knotted aroundEvents).get (by decide +kernel)

theorem knot_forever_knotted : around.Knot hostConfig {0,1} ∧
    (∀ i ∈ ({0,1} : Set ℕ), Still i (trace (next hostConfig) knotted aroundEvents)) ∧
      Kept {0,1} knotted around :=
  knot_forever knotted_knot (run_trace (Option.some_get (by decide +kernel)).symm)

/-- When no task that is not over can make a step, these tasks are a knot. -/
lemma Owned.knot (ho : system.Owned) (hQ : Q ≤ 65535) (hS : S ≤ 65535) (hM : M ≤ 65535)
    (hB : B ≤ 65535) (hstuck : ∀ (i : ℕ) (h : Handler T P F), system.handlers[i]? = some h →
      ¬ h.phase.Ended → ∀ action, system.next cfg (.task i action) = none) :
    system.Knot cfg {i | ∃ h : Handler T P F, system.handlers[i]? = some h ∧ ¬ h.phase.Ended} := by
  rintro i ⟨h,hi,halive⟩
  obtain ⟨j,hw⟩ := ho.waits_of_stuck hQ hS hM hB hi halive (hstuck i h hi halive)
  refine ⟨j,?_,hw⟩
  cases hw with
  | signal _ _ target alive => exact ⟨_,target,alive⟩
  | frame own => exact own ▸ ⟨h,hi,halive⟩
  | @entry _ t session _ _ holder held =>
    refine ⟨t,holder,?_⟩
    intro he
    cases hphase : t.phase with
    | awaiting => rw [hphase] at he; exact he
    | _ => rw [hphase] at held; cases held

/-- When none of the tasks that are not over can make a step, none of them ever does again, whoever else
comes. -/
theorem deadlock_lasts (hr : Reachable (next cfg) new system) (hQ : Q ≤ 65535) (hS : S ≤ 65535)
    (hM : M ≤ 65535) (hB : B ≤ 65535) (hstuck : ∀ (i : ℕ) (h : Handler T P F),
      system.handlers[i]? = some h → ¬ h.phase.Ended →
      ∀ action, system.next cfg (.task i action) = none)
    (hrun : Run (next cfg) system hist system') (hi : system.handlers[i]? = some h)
    (halive : ¬ h.phase.Ended) : Still i hist := by
  have hk := (owned_of_reachable hr).knot hQ hS hM hB hstuck
  exact (knot_forever hk hrun).2.1 i ⟨h,hi,halive⟩

/-- The cleanup removes the session of the client, and another one comes. -/
def laterEvents : List Event := .cleanup 1000000000000 :: arrival 1 []
def later : System 1 1 1 1 1 1 1 := (exec (next hostConfig) jammed laterEvents).get (by decide)

lemma later_run : Run (next hostConfig) jammed (trace (next hostConfig) jammed laterEvents) later :=
  run_trace (Option.some_get (by decide)).symm

theorem deadlock_lasts_jammed : Still 0 (trace (next hostConfig) jammed laterEvents) := by
  refine deadlock_lasts jammed_reachable (by decide) (by decide) (by decide) (by decide) ?_ later_run
    (h := jammedTask) (List.getElem?_eq_getElem (by decide)) (by decide)
  intro i h hi _ action
  have hlt : i < 1 := (List.getElem?_eq_some_iff.mp hi).1
  obtain rfl : i = 0 := by omega
  exact jammed_waits.stuck action

end System

end TokioServer

end Picobroker
