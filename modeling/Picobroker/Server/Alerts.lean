import Picobroker.Server.Pool

/-! Notifications in the RP2040 server: the registry holds exactly the sessions that are served, and a
session with packets to send is not forgotten, whatever the order in which the tasks of the pool run. -/
namespace Picobroker
open Rust

variable {T P Q S M B : ℕ}

namespace PicoBroker

variable {broker broker' : PicoBroker T P Q S M B} {m : SessionMap T P} {s t : ℕ}

/-- A call that leaves the topics and the queues of `t` alone. -/
lemma Idle.of_consistent (ht : broker.Idle t) (h : broker'.Consistent m)
    (htopics : broker'.topics = broker.topics) (hrx : m.rx t = broker.rx t)
    (htx : m.tx t = broker.tx t) : broker'.Idle t := by
  refine ⟨?_,?_,?_⟩
  · rw [Unlisted,htopics]
    exact ht.unlisted
  · rw [h.rx_eq,hrx,ht.rx]
  · rw [h.tx_eq,htx,ht.tx]

lemma Consistent.idle_removeSession (h : broker.Consistent broker.sessions.toMap)
    (ht : broker.Idle t) (s : ℕ) : (broker.removeSession s).2.Idle t := by
  have hc := h.removeSession s
  refine ⟨?_,?_,?_⟩
  · refine TopicRegistry.unregisterAll_everyEntry ?_ ht.unlisted
    intro l hl hmem
    exact hl (List.mem_of_mem_erase hmem)
  · rw [hc.rx_eq,SessionMap.remove_rx,← h.rx_eq,ht.rx,ite_self]
  · rw [hc.tx_eq,SessionMap.remove_tx,← h.tx_eq,ht.tx,ite_self]

lemma Consistent.idle_removeSessions (h : broker.Consistent broker.sessions.toMap)
    (ht : broker.Idle t) (ids : List ℕ) : (broker.removeSessions ids).Idle t := by
  induction ids generalizing broker with
  | nil => exact ht
  | cons s ids ih => exact ih (h.removeSession s).self.1 (h.idle_removeSession ht s)

lemma Consistent.idle_cleaned (h : broker.Consistent broker.sessions.toMap) (ht : broker.Idle t)
    (currentTime : ℕ) : (broker.cleaned currentTime).Idle t :=
  (h.removeSessions _).idle_removeSessions (h.idle_removeSessions ht _) _

end PicoBroker

namespace Rp2040Server

namespace NotificationRegistry

variable {registry : NotificationRegistry S} {s : ℕ} {j : Fin S}

@[simp] lemma notifySession_sessionIds (s : ℕ) (registry : NotificationRegistry S) :
    (registry.notifySession s).sessionIds = registry.sessionIds := by
  unfold notifySession
  split
  · split <;> rfl
  · rfl

/-- A notification takes none out of a channel. -/
lemma notifySession_items (h : (registry.channels j).items ≠ []) :
    ((registry.notifySession s).channels j).items ≠ [] := by
  unfold notifySession
  split
  next idx found =>
    split
    next channel sent =>
      by_cases hj : j = idx
      · subst hj
        simp [Channel.trySend_eq_some sent]
      · simpa [hj] using h
    next => exact h
  next => exact h

/-- It is there for the one entry with the id. When the channel is full, one is there already. -/
lemma notifySession_reaches (h : ∀ k, registry.sessionIds k = s ↔ k = j) :
    ((registry.notifySession s).channels j).items ≠ [] := by
  unfold notifySession
  split
  next idx found =>
    have hidx : idx = j := by
      have hfound := List.find?_some found
      exact (h idx).mp (of_decide_eq_true hfound)
    subst hidx
    split
    next channel sent => simp [Channel.trySend_eq_some sent]
    next full =>
      have hfull : (registry.channels idx).items.length = 1 := Channel.trySend_eq_none.mp full
      intro hnil
      rw [hnil] at hfull
      cases hfull
  next missing =>
    rw [List.find?_eq_none] at missing
    exact absurd (decide_eq_true ((h j).mpr rfl)) (missing j (List.mem_finRange j))

end NotificationRegistry

namespace Phase

/-- The task is still to notify the session. -/
def Owes (s : ℕ) : Phase T P → Prop
  | .notifying sessions _ => s ∈ sessions
  | _ => False

lemma Alone.not_owes {phase : Phase T P} (h : phase.Alone) (s : ℕ) : ¬ phase.Owes s := by
  cases phase with
  | notifying sessions packets =>
    cases sessions with
    | nil => exact List.not_mem_nil
    | cons => exact h.elim
  | _ => exact id

/-- A task in the loop was there before, or has just entered its session in the registry. -/
lemma Moves.looping_of {phase phase' : Phase T P} (hm : phase.Moves phase') (h : phase'.Looping) :
    phase.Looping ∨ phase = .registered := by
  cases hm with
  | loops from' => exact .inl from'
  | listed => exact .inr rfl
  | registered | refused | unlisted | left => exact h.elim

/-- The entry of a session in the registry changes with two steps only. -/
lemma Moves.listed_iff {phase phase' : Phase T P} (hm : phase.Moves phase')
    (hr : phase ≠ .registered) (hc : phase = .closing → phase'.Listed) :
    phase'.Listed ↔ phase.Listed := by
  cases hm with
  | loops from' to' => exact iff_of_true to' (.inl from')
  | listed => exact absurd rfl hr
  | unlisted => exact iff_of_true (hc rfl) (.inr rfl)
  | registered | refused | left => simp [Listed,Looping]

end Phase

/-- No connection is accepted at the first tick of the clock. -/
def Event.Late : Event S → Prop
  | .accept _ ticks _ => ticks ≠ 0
  | _ => True

instance (event : Event S) : Decidable event.Late := by
  unfold Event.Late
  split <;> infer_instance

namespace System

variable {cfg : Config} {system system' : System T P Q S M B} {i j : Fin S} {action : Action}
  {n : ℕ} {hist : List (System T P Q S M B × Event S)}

/-! ### The registry -/

/-- The registry holds the sessions that are served and no others. -/
def Exact (system : System T P Q S M B) : Prop :=
  ∀ i, system.registry.sessionIds i =
    if (system.slots i).phase.Listed then (system.slots i).sessionId else 0

lemma Acts.sessionIds (ha : Acts cfg i system action system') :
    (system'.registry.sessionIds = system.registry.sessionIds ∧
      ((system'.slots i).phase.Listed ↔ (system.slots i).phase.Listed)) ∨
    system'.registry.sessionIds = Function.update system.registry.sessionIds i
      (if (system'.slots i).phase.Listed then (system'.slots i).sessionId else 0) := by
  have hm := ha.moves.2
  cases ha with
  | alone steps =>
    refine .inl ⟨rfl,hm.listed_iff (steps.alone.ne id) ?_⟩
    intro he
    exact absurd he (steps.alone.ne id)
  | listed =>
    refine .inr ?_
    rw [put_slots_self,if_pos (.inl trivial)]
    rfl
  | unlisted =>
    refine .inr ?_
    rw [setPhase_slots_self,if_neg (by simp [Phase.Listed,Phase.Looping])]
    rfl
  | notified phase =>
    exact .inl ⟨NotificationRegistry.notifySession_sessionIds _ _,
      hm.listed_iff (by simp [phase]) (by simp [phase])⟩
  | registered phase | refused phase | served phase | failed phase | woken phase | fetched phase
  | left phase => exact .inl ⟨rfl,hm.listed_iff (by simp [phase]) (by simp [phase])⟩

lemma Exact.acts (he : system.Exact) (ha : Acts cfg i system action system') : system'.Exact := by
  intro j
  by_cases hj : j = i
  · subst hj
    obtain ⟨hids,hlisted⟩ | hids := ha.sessionIds
    · rw [hids,he j,ha.moves.1]
      simp only [hlisted]
    · rw [hids,Function.update_self]
  · rw [ha.slots_of_ne hj,← he j]
    obtain ⟨hids,-⟩ | hids := ha.sessionIds
    · rw [hids]
    · rw [hids,Function.update_of_ne hj]

lemma Exact.next (he : system.Exact) {event : Event S}
    (hn : system.next cfg event = some system') : system'.Exact := by
  cases steps_of_next hn with
  | acted acts => exact he.acts acts
  | cleaned => exact he
  | @accepted i ticks stream phase =>
    intro j
    by_cases hj : j = i
    · subst hj
      rw [put_slots_self,if_neg (by simp [Phase.Listed,Phase.Looping])]
      have hold := he j
      rwa [if_neg (by simp [phase,Phase.Listed,Phase.Looping])] at hold
    · rw [put_slots_of_ne hj]
      exact he j

/-! ### Sessions that are not yet in the registry -/

section Effect

variable {s t : ℕ} {broker broker' : PicoBroker T P Q S M B} {queued : ℕ → List (Packet T P)}
  {phase phase' : Phase T P}

/-- Nothing is queued for an idle session while the tasks of others make their steps. -/
lemma Effect.idle (he : Effect s broker queued phase phase' broker')
    (hc : broker.Consistent broker.sessions.toMap) (hts : t ≠ s) (ht : broker.Idle t) :
    broker'.Idle t := by
  cases he with
  | none => exact ht
  | registered _ topics _ consistent =>
    refine ht.of_consistent consistent topics ?_ ?_
    · rw [SessionMap.add_rx,if_neg hts,hc.rx_eq]
    · rw [SessionMap.add_tx,if_neg hts,hc.tx_eq]
  | served _ grown _ topics consistent =>
    refine (grown.idle t hts ht).of_consistent consistent topics ?_ ?_
    · rw [SessionMap.setTx_rx,grown.consistent.rx_eq]
    · rw [SessionMap.setTx_tx,if_neg hts,grown.consistent.tx_eq]
  | failed _ grown => exact grown.idle t hts ht
  | fetched topics _ consistent =>
    refine ht.of_consistent consistent topics ?_ ?_
    · rw [SessionMap.setTx_rx,hc.rx_eq]
    · rw [SessionMap.setTx_tx,if_neg hts,hc.tx_eq]
  | left => exact hc.idle_removeSession ht s

/-- A session that was just registered is idle. -/
lemma Effect.idle_registered (he : Effect s broker queued phase .registered broker')
    (hc : broker.Consistent broker.sessions.toMap) : broker'.Idle s := by
  cases he with
  | none _ _ _ registered => exact absurd rfl registered
  | registered fresh topics _ consistent =>
    refine ⟨?_,?_,?_⟩
    · intro entry hentry hmem
      rw [topics] at hentry
      exact fresh (hc.registered entry hentry s hmem)
    · rw [consistent.rx_eq,SessionMap.add_rx,if_pos rfl]
    · rw [consistent.tx_eq,SessionMap.add_tx,if_pos rfl]

/-- What a step leaves in the queue of a session: nothing, what was there, or packets of which the task
will notify the session. -/
lemma Effect.tx_cases (he : Effect s broker queued phase phase' broker')
    (hc : broker.Consistent broker.sessions.toMap)
    (hok : ∀ packet, phase = .received packet → phase' = .closing → s ∉ broker.sessions.ids) (t : ℕ) :
    broker'.tx t = [] ∨ (broker'.tx t = broker.tx t ∧ (t = s → phase ≠ .woken)) ∨ phase'.Owes t := by
  cases he with
  | none _ woken => exact .inr (.inl ⟨rfl,fun _ => woken⟩)
  | registered _ _ _ consistent =>
    rw [consistent.tx_eq,SessionMap.add_tx]
    split_ifs with ht
    · exact .inl rfl
    · exact .inr (.inl ⟨(hc.tx_eq t).symm,fun he => absurd he ht⟩)
  | served _ _ _ _ _ pending =>
    obtain hnil | hmem := pending t
    · exact .inl hnil
    · exact .inr (.inr hmem)
  | @failed packet _ mem => exact absurd mem (hok packet rfl rfl)
  | fetched _ _ consistent =>
    rw [consistent.tx_eq,SessionMap.setTx_tx]
    split_ifs with ht
    · exact .inl rfl
    · exact .inr (.inl ⟨(hc.tx_eq t).symm,fun he => absurd he ht⟩)
  | left =>
    rw [(hc.removeSession s).tx_eq,SessionMap.remove_tx]
    split_ifs with ht
    · exact .inl rfl
    · exact .inr (.inl ⟨(hc.tx_eq t).symm,fun he => absurd he ht⟩)

end Effect

/-- A session that is registered and not yet served is idle. -/
def Quiet (system : System T P Q S M B) : Prop :=
  ∀ i, (system.slots i).phase = .registered → system.broker.Idle (system.slots i).sessionId

lemma Quiet.acts (hq : system.Quiet) (hp : Pooled n system) (hlen : n ≤ 2^32)
    (ha : Acts cfg i system action system') : system'.Quiet := by
  have hc := hp.consistent
  have he := ha.effect hc
  intro j hj
  by_cases hij : j = i
  · subst hij
    rw [hj] at he
    rw [ha.moves.1]
    exact he.idle_registered hc
  · rw [ha.slots_of_ne hij] at hj ⊢
    refine he.idle hc ?_ (hq j hj)
    intro hid
    exact hij (hp.distinct hlen j i (by simp [hj]) ha.moves.2.not_listening hid)

/-! ### Wake-ups -/

/-- The task waits for the lock to fetch its packets, or a notification waits in its channel, or another
task is still to send it one. -/
def Alerted (system : System T P Q S M B) (i : Fin S) : Prop :=
  (system.registry.channels i).items ≠ [] ∨ (system.slots i).phase = .woken ∨
    ∃ j, (system.slots j).phase.Owes (system.slots i).sessionId

/-- No task in the loop is forgotten whose session has packets to send. -/
def NoneForgotten (system : System T P Q S M B) : Prop :=
  ∀ i, (system.slots i).phase.Looping → system.broker.tx (system.slots i).sessionId ≠ [] →
    system.Alerted i

/-- The session of the processing that a step makes, and what the processing returns. -/
def processing (e : System T P Q S M B × Event S) :
    Option (ℕ × Outcome (PicoBroker T P Q S M B) Empty
      (Except BrokerError (List ℕ × List (Packet T P)))) :=
  (arriving e).map (fun a => (a.1,PicoBroker.serve push a.1 a.2.1 a.2.2 e.1.broker))

/-- The processing failed, for a session that the broker has. -/
def Fails (e : System T P Q S M B × Event S) : Prop :=
  match processing e with
  | some (s,.ok (.error _) _) => s ∈ e.1.broker.sessions.ids
  | _ => False

def Succeeds (e : System T P Q S M B × Event S) : Prop :=
  match processing e with
  | some (_,.ok (.ok _) _) => True
  | _ => False

instance (e : System T P Q S M B × Event S) : Decidable (Fails e) := by
  unfold Fails
  split <;> infer_instance

/-- A channel loses a notification only when its task takes it. -/
lemma Acts.items (ha : Acts cfg i system action system')
    (hne : (system.registry.channels j).items ≠ []) :
    (system'.registry.channels j).items ≠ [] ∨ j = i ∧ (system'.slots i).phase = .woken := by
  cases ha with
  | woken =>
    by_cases hj : j = i
    · refine .inr ⟨hj,?_⟩
      rw [setPhase_slots_self]
    · refine .inl ?_
      simpa [setPhase,hj] using hne
  | notified => exact .inl (NotificationRegistry.notifySession_items hne)
  | _ => exact .inl hne

/-- A task that owes a notification still owes it after its step, or has sent it. -/
lemma Acts.pays (ha : Acts cfg i system action system') {s : ℕ}
    (howes : (system.slots i).phase.Owes s) (hj : ∀ k, system.registry.sessionIds k = s ↔ k = j) :
    (system'.slots i).phase.Owes s ∨ (system'.registry.channels j).items ≠ [] := by
  cases ha with
  | alone steps => exact absurd howes (steps.alone.not_owes s)
  | notified phase =>
    rw [phase] at howes
    rw [setPhase_slots_self]
    obtain rfl | hmem := List.mem_cons.mp howes
    · exact .inr (NotificationRegistry.notifySession_reaches hj)
    · exact .inl hmem
  | registered phase | refused phase | listed phase | served phase | failed phase | woken phase
  | fetched phase | unlisted phase | left phase =>
    rw [phase] at howes
    exact howes.elim

/-- The entry of a task in the loop is the only one with its id. -/
lemma Exact.entry_iff (he : system.Exact) (hp : Pooled n system) (hlen : n ≤ 2^32)
    (hne : (system.slots j).sessionId ≠ 0) (hj : (system.slots j).phase.Looping) (k : Fin S) :
    system.registry.sessionIds k = (system.slots j).sessionId ↔ k = j := by
  have hlisted : ∀ k, (system.slots k).phase.Listed → (system.slots k).phase ≠ .listening := by
    rintro k (hl | hl) hp
    · rw [hp] at hl
      exact hl
    · rw [hp] at hl
      cases hl
  rw [he k]
  constructor
  · intro hid
    split_ifs at hid with hk
    · exact hp.distinct hlen k j (hlisted k hk) (hlisted j (.inl hj)) hid
    · exact absurd hid.symm hne
  · rintro rfl
    rw [if_pos (.inl hj)]

lemma Alerted.acts (hal : system.Alerted j) (ha : Acts cfg i system action system')
    (he : system.Exact) (hp : Pooled n system) (hlen : n ≤ 2^32)
    (hne : (system.slots j).sessionId ≠ 0) (hj : (system.slots j).phase.Looping)
    (hfetch : j = i → (system.slots i).phase ≠ .woken) : system'.Alerted j := by
  have hid : (system'.slots j).sessionId = (system.slots j).sessionId := by
    by_cases hij : j = i
    · rw [hij]
      exact ha.moves.1
    · rw [ha.slots_of_ne hij]
  obtain hitems | hwoken | ⟨k,howes⟩ := hal
  · obtain hitems | ⟨rfl,hwoken⟩ := ha.items hitems
    · exact .inl hitems
    · exact .inr (.inl hwoken)
  · have hij : j ≠ i := by
      rintro rfl
      exact hfetch rfl hwoken
    refine .inr (.inl ?_)
    rw [ha.slots_of_ne hij]
    exact hwoken
  · by_cases hk : k = i
    · subst hk
      obtain howes | hitems := ha.pays howes (he.entry_iff hp hlen hne hj)
      · exact .inr (.inr ⟨k,hid ▸ howes⟩)
      · exact .inl hitems
    · refine .inr (.inr ⟨k,?_⟩)
      rw [ha.slots_of_ne hk,hid]
      exact howes

/-- A task that leaves the loop after a packet, and whose processing did not fail, has no session. -/
lemma Acts.absent_of_not_fails (ha : Acts cfg i system action system')
    (hok : ¬ Fails (system,.task i action)) {packet : Packet T P}
    (hphase : (system.slots i).phase = .received packet) (hphase' : (system'.slots i).phase = .closing) :
    (system.slots i).sessionId ∉ system.broker.sessions.ids := by
  cases ha with
  | alone steps =>
    have hl := steps.alone
    rw [hphase] at hl
    exact hl.elim
  | failed phase call =>
    intro hmem
    apply hok
    simp only [Fails,processing,arriving_serve phase,Option.map_some,call]
    exact hmem
  | served phase =>
    rw [setPhase_slots_self] at hphase'
    cases hphase'
  | registered phase | refused phase | listed phase | notified phase | woken phase | fetched phase
  | unlisted phase | left phase =>
    rw [hphase] at phase
    cases phase

lemma NoneForgotten.acts (hn : system.NoneForgotten) (he : system.Exact) (hq : system.Quiet)
    (hp : Pooled n system) (hlen : n ≤ 2^32)
    (hne : ∀ j, (system.slots j).phase ≠ .listening → (system.slots j).sessionId ≠ 0)
    (ha : Acts cfg i system action system') (hok : ¬ Fails (system,.task i action)) :
    system'.NoneForgotten := by
  have hc := hp.consistent
  intro j hj htx
  have hid : (system'.slots j).sessionId = (system.slots j).sessionId := by
    by_cases hij : j = i
    · rw [hij]
      exact ha.moves.1
    · rw [ha.slots_of_ne hij]
  rw [hid] at htx
  have hcases := (ha.effect hc).tx_cases hc
    (fun _ hphase hphase' => ha.absent_of_not_fails hok hphase hphase') (system.slots j).sessionId
  obtain hnil | ⟨hsame,hfetch⟩ | howes := hcases
  · exact absurd hnil htx
  · rw [hsame] at htx
    have hloop : (system.slots j).phase.Looping := by
      by_cases hij : j = i
      · subst hij
        obtain hl | hreg := ha.moves.2.looping_of hj
        · exact hl
        · exact absurd (hq j hreg).tx htx
      · rwa [ha.slots_of_ne hij] at hj
    refine (hn j hloop htx).acts ha he hp hlen (hne j hloop.registered.ne_listening) hloop ?_
    rintro rfl
    exact hfetch rfl
  · refine .inr (.inr ⟨i,?_⟩)
    rw [hid]
    exact howes

/-- Processing that succeeded leaves nobody forgotten, whatever was before. -/
lemma Succeeds.noneForgotten {event : Event S} (hs : Succeeds (system,event))
    (hc : system.broker.Consistent system.broker.sessions.toMap)
    (hn : system.next cfg event = some system') : system'.NoneForgotten := by
  unfold Succeeds at hs
  split at hs
  next s result broker hp =>
    obtain ⟨⟨s,packet,currentTime⟩,ha,hcall⟩ := Option.map_eq_some_iff.mp hp
    obtain ⟨i,rfl,hphase,rfl⟩ := arriving_eq_some ha
    obtain ⟨-,call⟩ := Prod.mk.inj hcall
    obtain ⟨sessions,packets⟩ := result
    rw [System.next] at hn
    simp only [act,hphase,call,Option.some.injEq] at hn
    subst hn
    intro j _ htx
    obtain hnil | hmem := hc.served_tx call ((setPhase i (.notifying sessions packets)
      { system with broker }).slots j).sessionId
    · exact absurd hnil htx
    · refine .inr (.inr ⟨i,?_⟩)
      rw [setPhase_slots_self]
      exact hmem
  next => exact hs.elim

/-- What is known after a run: who owns what, and that nobody is forgotten as long as every processing
that failed was followed by one that succeeded. -/
structure Watched (hist : List (System T P Q S M B × Event S)) (system : System T P Q S M B) :
    Prop where
  pooled : Pooled (accepted hist) system
  exact : system.Exact
  quiet : accepted hist ≤ 2^32 → system.Quiet
  late : (∀ e ∈ hist, e.2.Late) → ∀ j, (system.slots j).phase ≠ .listening →
    (system.slots j).sessionId ≠ 0
  noneForgotten : accepted hist ≤ 2^32 → (∀ e ∈ hist, e.2.Late) → Mended Fails Succeeds hist →
    system.NoneForgotten

lemma watched_new : Watched [] (new : System T P Q S M B) := by
  refine ⟨pooled_new,?_,?_,?_,?_⟩
  · intro j
    rw [if_neg (by simp [new,Phase.Listed,Phase.Looping])]
    rfl
  · intro _ j hj
    cases hj
  · exact fun _ j hj => absurd rfl hj
  · exact fun _ _ _ j hj => hj.elim

lemma Alerted.accept {slot : Slot T P} {sessionIdGen : IdGenerator} (hal : system.Alerted j)
    (hj : j ≠ i) (phase : (system.slots i).phase = .listening) :
    (put i slot { system with sessionIdGen }).Alerted j := by
  obtain hitems | hwoken | ⟨k,howes⟩ := hal
  · exact .inl hitems
  · refine .inr (.inl ?_)
    rw [put_slots_of_ne hj]
    exact hwoken
  · have hk : k ≠ i := by
      rintro rfl
      rw [phase] at howes
      exact howes
    refine .inr (.inr ⟨k,?_⟩)
    rw [put_slots_of_ne hk,put_slots_of_ne hj]
    exact howes

lemma NoneForgotten.next (hn : system.NoneForgotten) (he : system.Exact) (hq : system.Quiet)
    (hp : Pooled n system) (hlen : n ≤ 2^32)
    (hne : ∀ j, (system.slots j).phase ≠ .listening → (system.slots j).sessionId ≠ 0)
    {event : Event S} (hnext : system.next cfg event = some system')
    (hok : ¬ Fails (system,event)) : system'.NoneForgotten := by
  cases steps_of_next hnext with
  | acted acts => exact hn.acts he hq hp hlen hne acts hok
  | @cleaned currentTime _ scan =>
    obtain rfl := eq_cleaned_of_cleanup hp.consistent scan
    intro j hj htx
    obtain hnil | hsame := hp.consistent.tx_cleaned currentTime (system.slots j).sessionId
    · exact absurd hnil htx
    · exact hn j hj (hsame ▸ htx)
  | @accepted i ticks stream phase =>
    intro j hj htx
    by_cases hji : j = i
    · rw [hji,put_slots_self] at hj
      exact hj.elim
    · rw [put_slots_of_ne hji] at hj htx
      exact (hn j hj htx).accept hji phase

lemma Watched.next (hw : Watched hist system) {event : Event S}
    (hn : system.next cfg event = some system') : Watched (hist ++ [(system,event)]) system' := by
  have hp := hw.pooled
  have hle : accepted hist ≤ accepted (hist ++ [(system,event)]) := by
    rw [accepted_concat]
    exact Nat.le_add_right _ _
  have hlate : (∀ e ∈ hist ++ [(system,event)], e.2.Late) →
      (∀ j, (system.slots j).phase ≠ .listening → (system.slots j).sessionId ≠ 0) ∧ event.Late := by
    intro h
    exact ⟨hw.late (fun e he => h e (List.mem_append_left _ he)),h (system,event) (by simp)⟩
  have hp' : Pooled (accepted (hist ++ [(system,event)])) system' := by
    rw [accepted_concat]
    exact hp.next hn
  have hnone : accepted (hist ++ [(system,event)]) ≤ 2^32 →
      (∀ e ∈ hist ++ [(system,event)], e.2.Late) → Mended Fails Succeeds (hist ++ [(system,event)]) →
      system'.NoneForgotten := by
    intro hlen hl hm
    obtain hgood | ⟨hok,hm⟩ := hm.of_concat
    · exact hgood.noneForgotten hp.consistent hn
    · have hold := hw.noneForgotten (hle.trans hlen) (fun e he => hl e (List.mem_append_left _ he)) hm
      exact hold.next hw.exact (hw.quiet (hle.trans hlen)) hp (hle.trans hlen) (hlate hl).1 hn hok
  have hsteps := steps_of_next hn
  cases hsteps with
  | acted acts =>
    refine ⟨hp',hw.exact.next hn,?_,?_,hnone⟩
    · exact fun hlen => (hw.quiet (hle.trans hlen)).acts hp (hle.trans hlen) acts
    · intro h j hj
      obtain ⟨hj',hid⟩ := acts.not_listening hj
      rw [hid]
      exact (hlate h).1 j hj'
  | cleaned scan =>
    obtain rfl := eq_cleaned_of_cleanup hp.consistent scan
    refine ⟨hp',hw.exact.next hn,?_,fun h => (hlate h).1,hnone⟩
    exact fun hlen j hj => hp.consistent.idle_cleaned (hw.quiet (hle.trans hlen) j hj) _
  | @accepted i ticks stream phase =>
    refine ⟨hp',hw.exact.next hn,?_,?_,hnone⟩
    · intro hlen j hj
      by_cases hji : j = i
      · rw [hji,put_slots_self] at hj
        cases hj
      · rw [put_slots_of_ne hji] at hj ⊢
        exact hw.quiet (hle.trans hlen) j hj
    · intro h j hj
      by_cases hji : j = i
      · rw [hji,put_slots_self]
        exact IdGenerator.idOf_ne_zero (hlate h).2 _
      · rw [put_slots_of_ne hji] at hj ⊢
        exact (hlate h).1 j hj

lemma watched_of_run (hr : Run (next cfg) new hist system) : Watched hist system :=
  hr.history (H := Watched) watched_new (fun _ _ _ _ _ hw hn => hw.next hn)

/-- Whatever the order in which the tasks of the pool run, the registry holds exactly the sessions that
are served. Up to 2^32 connections, none of them at the first tick of the clock, no wake-up is lost: as
long as every processing that failed was followed by one that succeeded, a task in the loop whose session
has packets to send has a notification in its channel, waits for the lock to fetch them, or is on the list
of a task that is still sending notifications. -/
theorem no_lost_notification (hr : Run (next cfg) new hist system) :
    system.Exact ∧ (accepted hist ≤ 2^32 → (∀ e ∈ hist, e.2.Late) → Mended Fails Succeeds hist →
      system.NoneForgotten) := by
  have hw := watched_of_run hr
  exact ⟨hw.exact,hw.noneForgotten⟩

/-- The bytes of a SUBSCRIBE to the topic `a` and of a PUBLISH to it. -/
def subscribeBytes : Bytes := [0x82,0x06,0x00,0x07,0x00,0x01,0x61,0x00]
def publishBytes : Bytes := [0x30,0x04,0x00,0x01,0x61,0x68]

/-- One client subscribes to the topic `a`, its task notifies itself of the SUBACK that it has in hand,
and another client publishes to the topic. -/
def publishEvents : List (Event 2) :=
  arrival firstTask subscribeBytes ++ arrival secondTask publishBytes ++
    [.task firstTask (.read 8 1),.task firstTask (.serve 1),.task firstTask .notify,
      .task firstTask .notify,.task firstTask .send,.task firstTask (.write 5),.task firstTask .send,
      .task firstTask .send,.task firstTask .wake,.task firstTask .fetch,.task firstTask .send,
      .task secondTask (.read 6 1),.task secondTask (.serve 1),.task secondTask .notify]

def published : System 1 1 1 2 1 2 := (exec (next boardConfig) new publishEvents).get (by decide)
def publishTrace : List (System 1 1 1 2 1 2 × Event 2) := trace (next boardConfig) new publishEvents

lemma publish_run : Run (next boardConfig) new publishTrace published :=
  run_trace (Option.some_get (by decide)).symm

theorem no_lost_notification_publish : published.Exact ∧ published.NoneForgotten := by
  obtain ⟨hexact,hnone⟩ := no_lost_notification publish_run
  exact ⟨hexact,hnone (by decide) (by decide) (mended_of_forall_not (by decide))⟩

/-- The subscriber finds the notification in its channel, fetches the packet and writes it. -/
example : (exec (next boardConfig) published [.task firstTask .wake,.task firstTask .fetch,
    .task firstTask .send,.task firstTask (.write 6)]).map (fun system =>
      (system.slots firstTask).socket) =
        some [0x90,0x03,0x00,0x07,0x00,0x30,0x04,0x00,0x01,0x61,0x68] := by decide

end System

end Rp2040Server

end Picobroker
