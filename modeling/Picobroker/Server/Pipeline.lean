import Picobroker.Server.Carrying

/-! What the Tokio server delivers: the bytes on the socket of a client are those of the packets queued
for its session, in order, and nothing is lost on the way while the session is registered and its task
in the loop. -/
namespace Picobroker
open Rust

variable {T P Q S M B F : ℕ}

namespace TokioServer

namespace Phase

/-- Of the frame that is being written. -/
def unwritten : Phase T P → Bytes
  | .writing rest => rest
  | _ => []

/-- The session is not yet registered. -/
def Early (phase : Phase T P) : Prop := phase = .starting ∨ phase = .announced

/-- On its way to the loop, or in it. -/
def Staying : Phase T P → Prop
  | .closing | .forgotten | .unannounced | .closed | .rejected | .panicked => False
  | _ => True

variable {phase phase' : Phase T P} {action : Action}

lemma Early.staying (h : phase.Early) : phase.Staying := by obtain rfl | rfl := h <;> trivial

lemma Live.staying (h : phase.Live) : phase.Staying := by
  obtain rfl | h := h
  · trivial
  · cases phase <;> trivial

lemma Staying.cases (h : phase.Staying) : phase.Early ∨ phase.Live := by
  cases phase with
  | starting => exact .inl (.inl rfl)
  | announced => exact .inl (.inr rfl)
  | joined => exact .inr (.inl rfl)
  | closing | forgotten | unannounced | closed | rejected | panicked => exact h.elim
  | _ => exact .inr (.inr trivial)

lemma Early.not_registered (h : phase.Early) : ¬ phase.Registered := by
  obtain rfl | rfl := h <;> exact id

lemma Early.not_live (h : phase.Early) : ¬ phase.Live := by
  obtain rfl | rfl := h
  all_goals
    rintro (hj | hl)
    · cases hj
    · exact hl

lemma Moves.early (hm : phase.Moves action phase') (h : phase'.Early) : phase.Early := by
  cases hm with
  | announced => exact .inl rfl
  | loops _ to' =>
    obtain hl | rfl | rfl := to'
    · exact absurd (.inr hl) h.not_live
    · obtain h | h := h <;> cases h
    · obtain h | h := h <;> cases h
  | inserted _ to' =>
    obtain rfl | rfl := to'
    · obtain h | h := h <;> cases h
    · obtain h | h := h <;> cases h
  | _ => obtain h | h := h <;> cases h

end Phase

/-- Still to be written of a frame, then in the channel to the writer, then in the hands of the task. -/
def Handler.inFlight (h : Handler T P F) : Bytes :=
  h.phase.unwritten ++ h.frames.items.flatten ++ wire h.phase.inHand

/-- A step of its own writes from the front of what is in flight. -/
lemma Handler.Steps.inFlight {cfg : Config} {h h' : Handler T P F} {action : Action}
    (hs : h.Steps cfg action h') (hf : cfg.Suits T P) (hc : h.phase.Clean) :
    ∃ out, h'.socket = h.socket ++ out ∧ out <+: h.inFlight ∧
      (h'.phase.Looping → out ++ h'.inFlight = h.inFlight) := by
  -- a step that writes nothing
  have hquiet : ∀ {x : Handler T P F}, x.socket = h.socket →
      (x.phase.Looping → x.inFlight = h.inFlight) → ∃ out, x.socket = h.socket ++ out ∧
        out <+: h.inFlight ∧ (x.phase.Looping → out ++ x.inFlight = h.inFlight) := by
    intro x hsocket hsame
    exact ⟨[],by rw [hsocket,List.append_nil],List.nil_prefix,hsame⟩
  have hpackets := hc.packets
  cases hs with
  | absorbed phase | received phase | informed phase | woken phase | finished phase | stayed phase
  | flushed phase =>
    refine hquiet rfl (fun _ => ?_)
    simp only [Handler.inFlight,phase,Phase.unwritten,Phase.inHand]
  | ended | readPanicked | sendPanicked | broken | expired => exact hquiet rfl (fun hl => hl.elim)
  | @queued packet packets frame u frames phase encode items =>
    refine hquiet rfl (fun _ => ?_)
    rw [phase] at hpackets
    rw [encodeFrame_eq hf (hpackets packet List.mem_cons_self)] at encode
    split_ifs at encode with hfits
    cases encode
    simp [Handler.inFlight,phase,Phase.unwritten,Phase.inHand,wire_cons_of_fits hfits,items]
  | @refused packet packets error u phase encode =>
    refine hquiet rfl (fun _ => ?_)
    rw [phase] at hpackets
    rw [encodeFrame_eq hf (hpackets packet List.mem_cons_self)] at encode
    split_ifs at encode with hfits
    simp [Handler.inFlight,phase,Phase.unwritten,Phase.inHand,wire_cons_of_not_fits hfits]
  | picked phase items =>
    refine hquiet rfl (fun _ => ?_)
    simp [Handler.inFlight,phase,Phase.unwritten,Phase.inHand,items]
  | @wrote n rest phase =>
    have hhand : h.inFlight = rest ++ h.frames.items.flatten := by
      simp [Handler.inFlight,phase,Phase.unwritten,Phase.inHand]
    refine ⟨rest.take n,rfl,?_,fun _ => ?_⟩
    · rw [hhand]
      exact (List.take_prefix n rest).trans (List.prefix_append _ _)
    · rw [hhand]
      simp [Handler.inFlight,Phase.unwritten,Phase.inHand,← List.append_assoc]

namespace System

variable {cfg : Config} {system system' : System T P Q S M B F} {i k target : ℕ}
  {h h' x x' : Handler T P F} {action : Action} {hist : List (System T P Q S M B F × Event)}

/-- What a step queues for a session. -/
def entering (s : ℕ) (e : System T P Q S M B F × Event) : List (Packet T P) :=
  match arriving e with
  | some (s',packet,currentTime) => e.1.broker.queuedFor s' packet currentTime s
  | none => []

/-- What was queued for a session in the course of a run. -/
def entered (hist : List (System T P Q S M B F × Event)) (s : ℕ) : List (Packet T P) :=
  hist.flatMap (entering s)

/-- The bytes on their way to the client: in flight, and then in the queue of the session. -/
def pipeline (system : System T P Q S M B F) (h : Handler T P F) : Bytes :=
  h.inFlight ++ wire (system.broker.tx h.sessionId)

/-- The session of the task is not yet registered, or it still is while the task serves it. -/
def Intact (system : System T P Q S M B F) (h : Handler T P F) : Prop :=
  h.phase.Early ∨ h.phase.Live ∧ h.sessionId ∈ system.broker.sessions.ids

lemma entered_concat (e : System T P Q S M B F × Event) (s : ℕ) :
    entered (hist ++ [e]) s = entered hist s ++ entering s e := by
  rw [entered,List.flatMap_append,List.flatMap_singleton]
  rfl

lemma Owned.tx_missing (ho : system.Owned) {s : ℕ} (hs : s ∉ system.broker.sessions.ids) :
    system.broker.tx s = [] := (ho.consistent.shows.find_none hs).2.2.2

lemma Owned.entering_missing (ho : system.Owned) {s : ℕ} (hs : s ∉ system.broker.sessions.ids)
    (event : Event) : entering s (system,event) = [] := by
  unfold entering
  split
  · exact ho.consistent.queuedFor_missing hs
  · rfl

/-- The session of a task that has not registered it is not registered. -/
lemma Owned.early_missing (ho : system.Owned) (hlen : system.handlers.length ≤ 2^32)
    (hi : system.handlers[i]? = some h) (hearly : h.phase.Early) :
    h.sessionId ∉ system.broker.sessions.ids := by
  intro hs
  obtain ⟨k,x,hx,hid,hp⟩ := ho.sessions _ hs
  obtain rfl := ho.distinct hlen hx hi hid
  rw [hi] at hx
  cases hx
  exact hearly.not_registered hp

lemma entering_serve {packet : Packet T P} {currentTime : ℕ} (hi : system.handlers[i]? = some h)
    (phase : h.phase = .received packet) (s : ℕ) :
    entering s (system,.task i (.serve currentTime)) =
      system.broker.queuedFor h.sessionId packet currentTime s := by
  simp only [entering,arriving,hi,Option.bind_some,phase]

/-- A step that is not the processing of a packet queues nothing. -/
lemma entering_of_ne (hne : ∀ currentTime, action ≠ .serve currentTime) (s : ℕ) :
    entering s (system,.task i action) = [] := by
  unfold entering
  split
  next s' packet currentTime ha =>
    obtain ⟨j,h',he,-⟩ := arriving_eq_some ha
    cases he
    exact absurd rfl (hne currentTime)
  next => rfl

lemma entering_alone (step : h.Steps cfg action h') (s : ℕ) :
    entering s (system,.task i action) = [] := by
  apply entering_of_ne
  rintro currentTime rfl
  cases step

/-- The queue of another session only grows by what is queued for it. -/
lemma Acts.tx_other (ha : Acts cfg i h system action system') (hi : system.handlers[i]? = some h)
    (ho : system.Owned) {t : ℕ} (ht : t ≠ h.sessionId) :
    system'.broker.tx t = system.broker.tx t ++ entering t (system,.task i action) := by
  have hc := ho.consistent
  cases ha with
  | alone step =>
    rw [entering_alone step,List.append_nil]
    rfl
  | @joined currentTime broker phase call =>
    obtain ⟨e,hr⟩ | ⟨why,hr⟩ | ⟨b,hr,-,-,hb⟩ :=
      hc.registerNewSession h.sessionId cfg.defaultKeepAliveSecs currentTime
    · rw [hr] at call; cases call
    · rw [hr] at call; cases call
    · rw [hr] at call
      cases call
      rw [entering_of_ne (by simp),List.append_nil,setPhase_broker,hb.tx_eq,SessionMap.add_tx,if_neg ht,
        hc.tx_eq]
  | @rejected currentTime error broker phase call =>
    obtain ⟨e,hr⟩ | ⟨why,hr⟩ | ⟨b,hr,-⟩ :=
      hc.registerNewSession h.sessionId cfg.defaultKeepAliveSecs currentTime
    · rw [hr] at call
      cases call
      rw [entering_of_ne (by simp),List.append_nil]
      rfl
    · rw [hr] at call; cases call
    · rw [hr] at call; cases call
  | @served currentTime packet sessions packets broker phase call =>
    have hs := hc.serve (ε := Empty) push h.sessionId packet currentTime
    rw [call] at hs
    cases hs with
    | @done processed _ mem grown tx topics consistent =>
      rw [entering_serve hi phase,setPhase_broker,consistent.tx_eq,SessionMap.setTx_tx,if_neg ht,
        ← grown.consistent.tx_eq,tx]
  | @failed currentTime packet error broker phase call =>
    have hs := hc.serve (ε := Empty) push h.sessionId packet currentTime
    rw [call] at hs
    rw [entering_serve hi phase,setPhase_broker]
    cases hs with
    | absent mem none => rw [none,List.append_nil]
    | failed mem grown tx => exact tx t
  | @fetched packets broker phase call =>
    obtain ⟨b,hd,-,hb,-⟩ := hc.dequeueAll (ε := Empty) push h.sessionId
    rw [hd] at call
    cases call
    rw [entering_of_ne (by simp),List.append_nil,setPhase_broker,hb.tx_eq,SessionMap.setTx_tx,if_neg ht,
      hc.tx_eq]
  | left phase =>
    rw [entering_of_ne (by simp),List.append_nil,setPhase_broker,(hc.removeSession h.sessionId).tx_eq,
      SessionMap.remove_tx,if_neg ht,hc.tx_eq]
  | notified phase _ signals | resumed phase signals =>
    rw [entering_of_ne (by simp),List.append_nil,setPhase_broker,signals.shared.1]
  | announced phase | inserted phase | skipped phase | blocked phase | forgot phase
  | unannounced phase =>
    rw [entering_of_ne (by simp),List.append_nil]
    rfl

/-- A step that writes nothing: packets go from the queue to the hands of the task. -/
lemma pipeline_setPhase {system₁ : System T P Q S M B F} {phase : Phase T P}
    {added : List (Packet T P)} (hr : ∃ h₁, system₁.handlers[i]? = some h₁ ∧ h.Receives h₁)
    (hi' : (system₁.setPhase i phase).handlers[i]? = some h')
    (hp : phase.Staying → phase.unwritten = h.phase.unwritten ∧
      phase.inHand ++ system₁.broker.tx h.sessionId =
        h.phase.inHand ++ system.broker.tx h.sessionId ++ added) :
    ∃ out, h'.socket = h.socket ++ out ∧ (out = [] ∨ h.phase.Live ∧ out <+: h.inFlight) ∧
      (h'.phase.Staying →
        out ++ (system₁.setPhase i phase).pipeline h' = system.pipeline h ++ wire added) := by
  obtain ⟨notify,rfl⟩ := setPhase_own hr hi'
  refine ⟨[],(List.append_nil _).symm,.inl rfl,fun hphase => ?_⟩
  obtain ⟨hrest,hpackets⟩ := hp hphase
  have hpackets := congrArg wire hpackets
  simp only [wire_append] at hpackets
  simp only [List.nil_append,pipeline,Handler.inFlight,setPhase_broker,List.append_assoc,hrest,hpackets]

/-- What a step does to the bytes of its own task. -/
lemma Acts.own_pipeline (ha : Acts cfg i h system action system') (hi : system.handlers[i]? = some h)
    (hi' : system'.handlers[i]? = some h') (ho : system.Owned) (hf : cfg.Suits T P)
    (hclean : h.phase.Clean) :
    ∃ out, h'.socket = h.socket ++ out ∧ (out = [] ∨ h.phase.Live ∧ out <+: h.inFlight) ∧
      (h'.phase.Staying → out ++ system'.pipeline h' =
        system.pipeline h ++ wire (entering h.sessionId (system,.task i action))) := by
  have hc := ho.consistent
  have hself : ∃ h₁, system.handlers[i]? = some h₁ ∧ h.Receives h₁ := ⟨h,hi,.refl h⟩
  cases ha with
  | @alone action h₁ step =>
    obtain ⟨out,hsocket,hpre,hflow⟩ := step.inFlight hf hclean
    obtain ⟨hid,hl,hl'⟩ := step.moves
    obtain ⟨y,hy,he⟩ := update_handler.mp hi'
    rw [if_pos rfl] at he
    subst he
    refine ⟨out,hsocket,.inr ⟨.inr hl,hpre⟩,fun hphase => ?_⟩
    have hloop : h₁.phase.Looping := by
      obtain hl' | he | he := hl'
      · exact hl'
      · rw [he] at hphase
        exact hphase.elim
      · rw [he] at hphase
        exact hphase.elim
    rw [entering_alone step,wire_nil,List.append_nil,pipeline,pipeline,hid,← hflow hloop,
      List.append_assoc]
    rfl
  | @joined currentTime broker phase call =>
    refine pipeline_setPhase hself hi' (fun _ => ⟨by rw [phase]; rfl,?_⟩)
    obtain ⟨e,hr⟩ | ⟨why,hr⟩ | ⟨b,hr,hfresh,-,hb⟩ :=
      hc.registerNewSession h.sessionId cfg.defaultKeepAliveSecs currentTime
    · rw [hr] at call; cases call
    · rw [hr] at call; cases call
    · rw [hr] at call
      cases call
      rw [entering_of_ne (by simp),hb.tx_eq,SessionMap.add_tx,if_pos rfl,ho.tx_missing hfresh,phase]
      rfl
  | rejected =>
    exact pipeline_setPhase hself hi' (fun hphase => hphase.elim)
  | inserted phase =>
    obtain ⟨y,hy,he⟩ := update_handler.mp hi'
    change system.handlers[i]? = _ at hy
    rw [hi] at hy
    cases hy
    rw [if_pos rfl] at he
    subst he
    refine ⟨[],(List.append_nil _).symm,.inl rfl,fun hphase => ?_⟩
    rw [entering_of_ne (by simp),wire_nil,List.append_nil,List.nil_append,pipeline,pipeline,
      Handler.inFlight,Handler.inFlight,phase]
    split_ifs <;> rfl
  | @served currentTime packet sessions packets broker phase call =>
    refine pipeline_setPhase hself hi' (fun _ => ⟨by rw [phase]; rfl,?_⟩)
    have hs := hc.serve (ε := Empty) push h.sessionId packet currentTime
    rw [call] at hs
    cases hs with
    | @done processed _ mem grown tx topics consistent =>
      rw [entering_serve hi phase,phase,consistent.tx_eq,SessionMap.setTx_tx,if_pos rfl,
        List.append_nil]
      change (processed.tx h.sessionId).foldl push [] = _
      rw [foldl_push,tx]
      rfl
  | @failed currentTime packet error broker phase call =>
    refine pipeline_setPhase hself hi' (fun _ => ⟨by rw [phase]; rfl,?_⟩)
    have hs := hc.serve (ε := Empty) push h.sessionId packet currentTime
    rw [call] at hs
    rw [entering_serve hi phase,phase]
    cases hs with
    | absent mem none => rw [none,List.append_nil]; rfl
    | failed mem grown tx => exact tx h.sessionId
  | @fetched packets broker phase call =>
    refine pipeline_setPhase hself hi' (fun _ => ⟨by rw [phase]; rfl,?_⟩)
    obtain ⟨b,hd,-,hb,-⟩ := hc.dequeueAll (ε := Empty) push h.sessionId
    rw [hd] at call
    cases call
    rw [entering_of_ne (by simp),phase,hb.tx_eq,SessionMap.setTx_tx,if_pos rfl,foldl_push,hc.tx_eq]
    rfl
  | left =>
    exact pipeline_setPhase hself hi' (fun hphase => hphase.elim)
  | notified phase _ signals | resumed phase signals =>
    refine pipeline_setPhase (signals.receives hi) hi' (fun _ => ⟨by rw [phase]; rfl,?_⟩)
    rw [entering_of_ne (by simp),signals.shared.1,phase,List.append_nil]
    rfl
  | announced phase | skipped phase | blocked phase | forgot phase | unannounced phase =>
    refine pipeline_setPhase hself hi' (fun _ => ⟨by rw [phase]; rfl,?_⟩)
    rw [entering_of_ne (by simp),phase,List.append_nil]
    rfl

/-- A task that serves its session did so before the step. -/
lemma Acts.intact (ha : Acts cfg i h system action system') (hi : system.handlers[i]? = some h)
    (ho : system.Owned) (hlen : system.handlers.length ≤ 2^32) (hx : system.handlers[k]? = some x)
    (hx' : system'.handlers[k]? = some x') (hintact : system'.Intact x') : system.Intact x := by
  obtain ⟨y,hy,hid,hother,hself⟩ := (ha.follows hi).back hx'
  rw [hx] at hy
  cases hy
  by_cases hk : k = i
  · subst hk
    rw [hi] at hx
    cases hx
    obtain hearly | ⟨hlive,hmem⟩ := hintact
    · exact .inl ((hself rfl).early hearly)
    · obtain hl | hann := (hself rfl).live hlive
      · rw [hid] at hmem
        obtain ⟨hmem,-⟩ | ⟨hann,-⟩ := ha.mem_own ho.consistent hmem
        · exact .inr ⟨hl,hmem⟩
        · exact .inl (.inr hann)
      · exact .inl (.inr hann)
  · have hr := hother hk
    obtain hearly | ⟨hlive,hmem⟩ := hintact
    · exact .inl (hr.phase ▸ hearly)
    · have hne : x.sessionId ≠ h.sessionId := fun he => hk (ho.distinct hlen hx hi he)
      rw [hid] at hmem
      exact .inr ⟨hr.phase ▸ hlive,(ha.mem_ids ho.consistent hne).mp hmem⟩

/-- What a step does to the bytes of any task: it writes from the front of the pipeline, and what it
queues comes in at the back. -/
lemma Acts.pipeline (ha : Acts cfg i h system action system') (hi : system.handlers[i]? = some h)
    (ho : system.Owned) (hf : cfg.Suits T P) (hclean : h.phase.Clean)
    (hlen : system.handlers.length ≤ 2^32) (hx : system.handlers[k]? = some x)
    (hx' : system'.handlers[k]? = some x') :
    ∃ out, x'.socket = x.socket ++ out ∧ (out = [] ∨ x.phase.Live ∧ out <+: x.inFlight) ∧
      (x'.phase.Staying → out ++ system'.pipeline x' =
        system.pipeline x ++ wire (entering x.sessionId (system,.task i action))) := by
  by_cases hk : k = i
  · subst hk
    rw [hi] at hx
    cases hx
    exact ha.own_pipeline hi hx' ho hf hclean
  · obtain ⟨y,hy,hid,hother,-⟩ := (ha.follows hi).back hx'
    rw [hx] at hy
    cases hy
    have hne : x.sessionId ≠ h.sessionId := fun he => hk (ho.distinct hlen hx hi he)
    rw [(hother hk).same]
    refine ⟨[],(List.append_nil _).symm,.inl rfl,fun _ => ?_⟩
    rw [System.pipeline,System.pipeline,ha.tx_other hi ho hne,wire_append,List.nil_append,
      List.append_assoc]
    rfl

/-- What the client of a task got, and what is known of the rest of what was queued for it. -/
def Accounted (hist : List (System T P Q S M B F × Event)) (system : System T P Q S M B F)
    (x : Handler T P F) : Prop :=
  ∃ rest, x.socket ++ rest = wire (entered hist x.sessionId) ∧
    (system.Intact x → rest = system.pipeline x) ∧ (x.phase.Staying → system.pipeline x <+: rest)

lemma Accounted.acts (hacc : Accounted hist system x) (ha : Acts cfg i h system action system')
    (hi : system.handlers[i]? = some h) (ho : system.Owned) (hf : cfg.Suits T P)
    (hclean : h.phase.Clean) (hlen : system.handlers.length ≤ 2^32)
    (hx : system.handlers[k]? = some x) (hx' : system'.handlers[k]? = some x') :
    Accounted (hist ++ [(system,.task i action)]) system' x' := by
  obtain ⟨y,hy,hid,hother,hself⟩ := (ha.follows hi).back hx'
  rw [hx] at hy
  cases hy
  obtain ⟨rest,hall,hintact,hpre⟩ := hacc
  obtain ⟨out,hsocket,hout,hflow⟩ := ha.pipeline hi ho hf hclean hlen hx hx'
  obtain ⟨rest',rfl⟩ : out <+: rest := by
    obtain rfl | ⟨hlive,hout⟩ := hout
    · exact List.nil_prefix
    · exact (hout.trans (List.prefix_append _ _)).trans (hpre hlive.staying)
  have hstaying : x'.phase.Staying → x.phase.Staying := by
    intro hs
    by_cases hk : k = i
    · obtain hearly | hlive := hs.cases
      · exact ((hself hk).early hearly).staying
      · obtain hl | hann := (hself hk).live hlive
        · exact hl.staying
        · exact Phase.Early.staying (.inr hann)
    · exact (hother hk).phase ▸ hs
  refine ⟨rest' ++ wire (entering x.sessionId (system,.task i action)),?_,?_,?_⟩
  · rw [hsocket,hid,entered_concat,wire_append,← hall]
    simp only [List.append_assoc]
  · intro hintact'
    have hs : x'.phase.Staying := by
      obtain hearly | ⟨hlive,-⟩ := hintact'
      · exact hearly.staying
      · exact hlive.staying
    have heq := hflow hs
    rw [← hintact (ha.intact hi ho hlen hx hx' hintact'),List.append_assoc] at heq
    exact (List.append_cancel_left heq).symm
  · intro hs
    have heq := hflow hs
    by_cases hin : system.Intact x
    · rw [← hintact hin,List.append_assoc] at heq
      rw [List.append_cancel_left heq]
    · -- nothing is queued any more for a session that is gone
      have hgone : x.sessionId ∉ system.broker.sessions.ids := by
        intro hmem
        obtain hearly | hlive := (hstaying hs).cases
        · exact hin (.inl hearly)
        · exact hin (.inr ⟨hlive,hmem⟩)
      rw [ho.entering_missing hgone,wire_nil,List.append_nil] at heq ⊢
      have hle := hpre (hstaying hs)
      rw [← heq] at hle
      exact (List.prefix_append_right_inj out).mp hle

/-- The queue of a session that the cleanup removes is lost, and nothing else. -/
lemma Accounted.cleaned (hacc : Accounted hist system x) (ho : system.Owned)
    (hlen : system.handlers.length ≤ 2^32) (hx : system.handlers[k]? = some x) (currentTime : ℕ) :
    Accounted (hist ++ [(system,.cleanup currentTime)]) { system with
      connections := (cleanup currentTime system.connections system.broker).1
      broker := (cleanup currentTime system.connections system.broker).2 } x := by
  obtain ⟨rest,hall,hintact,hpre⟩ := hacc
  have hc := ho.consistent
  refine ⟨rest,?_,?_,?_⟩
  · rw [entered_concat,wire_append,hall]
    exact (List.append_nil _).symm
  · intro hintact'
    have htx : (system.broker.cleaned currentTime).tx x.sessionId = system.broker.tx x.sessionId := by
      obtain hearly | ⟨-,hmem⟩ := hintact'
      · obtain hnil | hsame := hc.tx_cleaned currentTime x.sessionId
        · rw [hnil,ho.tx_missing (ho.early_missing hlen hx hearly)]
        · exact hsame
      · exact hc.tx_cleaned_of_mem currentTime hmem
    have hold : system.Intact x := by
      obtain hearly | ⟨hlive,hmem⟩ := hintact'
      · exact .inl hearly
      · exact .inr ⟨hlive,((hc.mem_cleaned currentTime x.sessionId).mp hmem).1⟩
    rw [hintact hold]
    exact congrArg (fun packets => x.inFlight ++ wire packets) htx.symm
  · intro hs
    refine List.IsPrefix.trans ?_ (hpre hs)
    refine (List.prefix_append_right_inj _).mpr ?_
    change wire ((system.broker.cleaned currentTime).tx x.sessionId) <+: _
    obtain hnil | hsame := hc.tx_cleaned currentTime x.sessionId
    · rw [hnil]
      exact List.nil_prefix
    · rw [hsame]

/-- What is known after a run of what was queued, for the sessions of no task and for those of all
tasks. -/
structure Delivered (hist : List (System T P Q S M B F × Event)) (system : System T P Q S M B F) :
    Prop where
  owned : system.Owned
  clean : system.Clean
  sendable : ∀ s, ∀ p ∈ entered hist s, p.Sendable
  fresh : ∀ s, (∀ x ∈ system.handlers, x.sessionId ≠ s) → entered hist s = []
  accounted : system.handlers.length ≤ 2^32 → ∀ (k : ℕ) (x : Handler T P F),
    system.handlers[k]? = some x → Accounted hist system x

lemma delivered_new : Delivered [] (new : System T P Q S M B F) := by
  refine ⟨owned_new,clean_new,fun s p hp => ?_,fun _ _ => rfl,fun _ k x hx => ?_⟩
  · cases hp
  · cases hx

/-- The ids of the tasks before a step are among those after it. -/
lemma ids_subset_of_next {event : Event} (hn : system.next cfg event = some system')
    (hx : x ∈ system.handlers) : ∃ x' ∈ system'.handlers, x'.sessionId = x.sessionId := by
  cases steps_of_next hn with
  | @acted i action h _ handler acts =>
    obtain ⟨k,hk⟩ := List.mem_iff_getElem?.mp hx
    have hf := acts.follows handler
    by_cases hki : k = i
    · subst hki
      obtain ⟨x',hx',hid,-⟩ := hf.self x hk
      exact ⟨x',List.mem_of_getElem? hx',hid⟩
    · obtain ⟨x',hx',hr⟩ := hf.other k x hki hk
      exact ⟨x',List.mem_of_getElem? hx',hr.sessionId⟩
  | cleaned => exact ⟨x,hx,rfl⟩
  | accepted => exact ⟨x,List.mem_append_left _ hx,rfl⟩

/-- Whatever a step queues can be sent. -/
lemma Clean.entering (hc : system.Clean) (hf : cfg.Suits T P) (event : Event) (s : ℕ) {p : Packet T P}
    (hp : p ∈ entering s (system,event)) : p.Sendable := by
  unfold System.entering at hp
  split at hp
  next s' packet currentTime ha =>
    obtain ⟨i,h,-,hi,hphase,-⟩ := arriving_eq_some ha
    have hwf := (hc.handlers i h hi).received _ hphase
    exact hc.broker.queuedFor hf.topic hf.payload hwf currentTime hp
  next => cases hp

lemma Delivered.next (hd : Delivered hist system) (hf : cfg.Suits T P) {event : Event}
    (hn : system.next cfg event = some system') : Delivered (hist ++ [(system,event)]) system' := by
  have ho := hd.owned
  have ho' := ho.next hn
  have hle := length_le_of_next hn
  have hfresh : ∀ s, (∀ x ∈ system.handlers, x.sessionId ≠ s) →
      entered (hist ++ [(system,event)]) s = [] := by
    intro s hs
    rw [entered_concat,hd.fresh s hs,ho.entering_missing]
    · rfl
    · intro hmem
      obtain ⟨k,x,hx,hid,-⟩ := ho.sessions s hmem
      exact hs x (List.mem_of_getElem? hx) hid
  refine ⟨ho',hd.clean.next hf hn,?_,?_,fun hlen k x' hx' => ?_⟩
  · intro s p hp
    rw [entered_concat,List.mem_append] at hp
    obtain hp | hp := hp
    · exact hd.sendable s p hp
    · exact hd.clean.entering hf event s hp
  · intro s hs
    apply hfresh
    intro x hx
    obtain ⟨x',hx',hid⟩ := ids_subset_of_next hn hx
    rw [← hid]
    exact hs x' hx'
  · have hacc := hd.accounted (hle.trans hlen)
    have hsteps := steps_of_next hn
    cases hsteps with
    | acted handler acts =>
      obtain ⟨x,hx,-⟩ := (acts.follows handler).back hx'
      exact (hacc k x hx).acts acts handler ho hf (hd.clean.handlers _ _ handler) (hle.trans hlen) hx
        hx'
    | cleaned currentTime =>
      exact (hacc k x' hx').cleaned ho (hle.trans hlen) hx' currentTime
    | accepted secs chunks =>
      have hnew := hx'
      rw [List.getElem?_append] at hx'
      split_ifs at hx' with hk
      · obtain ⟨rest,hall,hintact,hpre⟩ := hacc k x' hx'
        refine ⟨rest,?_,hintact,hpre⟩
        rw [entered_concat,wire_append,hall]
        exact (List.append_nil _).symm
      · have hx := List.mem_singleton.mp (List.mem_of_getElem? hx')
        subst hx
        have hnil : ∀ x ∈ system.handlers, x.sessionId ≠ (generate secs system.sessionIdGen).1 := by
          intro x hx he
          obtain ⟨j,hj⟩ := List.mem_iff_getElem?.mp hx
          have hlt := (List.getElem?_eq_some_iff.mp hj).1
          have hj' : (system.handlers ++ [Handler.new (generate secs system.sessionIdGen).1 chunks])[j]? =
              some x := by rw [List.getElem?_append_left hlt,hj]
          exact hk (ho'.distinct hlen hnew hj' he.symm ▸ hlt)
        have htx := ho'.tx_missing (ho'.early_missing hlen hnew (.inl rfl))
        have hpipe : System.pipeline { system with
            sessionIdGen := (generate secs system.sessionIdGen).2
            handlers := system.handlers ++ [.new (generate secs system.sessionIdGen).1 chunks] }
            (Handler.new (generate secs system.sessionIdGen).1 chunks) = [] := by
          rw [System.pipeline]
          exact congrArg wire htx
        refine ⟨[],?_,fun _ => hpipe.symm,fun _ => hpipe ▸ List.prefix_rfl⟩
        exact (congrArg wire (hfresh _ hnil)).symm

lemma delivered_of_run (hf : cfg.Suits T P) (hr : Run (next cfg) new hist system) :
    Delivered hist system :=
  hr.history (H := Delivered) delivered_new (fun _ _ _ _ _ hd hn => hd.next hf hn)

lemma hostSuits : hostConfig.Suits 1 1 := ⟨by decide,by decide,by decide⟩

/-- Both clients are to get the PUBLISH, whose eight bytes have no room in the buffer of seven. The second
one is about to get its SUBACK and its PUBACK without it. -/
def droppedEvents : List Event := crowdedEvents ++ [.task 1 (.read 3),.task 1 (.serve 3),
  .task 1 .notify,.task 1 .notify,.task 1 .notify,.task 1 .send,.task 1 .send,.task 1 .send,
  .task 1 .recv,.task 1 (.write 3)]

def dropped : System 1 1 2 2 1 2 2 := (exec (next hostConfig) new droppedEvents).get (by decide)
def droppedTask : Handler 1 1 2 := dropped.handlers.get ⟨1,by decide⟩
def droppedTrace : List (System 1 1 2 2 1 2 2 × Event) := trace (next hostConfig) new droppedEvents

lemma dropped_run : Run (next hostConfig) new droppedTrace dropped :=
  run_trace (Option.some_get (by decide)).symm

example : droppedTask.socket ++ dropped.pipeline droppedTask =
    [0x90,0x03,0x00,0x07,0x00,0x40,0x02,0x00,0x05] := by decide

/-! ### A session that was removed -/

/-- The session of the task `i` is gone, and the task will not register it again. -/
structure Gone (i s : ℕ) (system : System T P Q S M B F) : Prop where
  owned : system.Owned
  task : ∃ h : Handler T P F, system.handlers[i]? = some h ∧ h.sessionId = s ∧ ¬ h.phase.Early
  missing : s ∉ system.broker.sessions.ids

lemma Gone.next {s : ℕ} (hg : Gone i s system) {event : Event}
    (hn : system.next cfg event = some system') (hlen : system'.handlers.length ≤ 2^32) :
    Gone i s system' := by
  have hlen := (length_le_of_next hn).trans hlen
  obtain ⟨ho,⟨h,hi,rfl,hlate⟩,hgone⟩ := hg
  refine ⟨ho.next hn,?_,?_⟩
  · cases steps_of_next hn with
    | @acted j action y _ handler acts =>
      have hf := acts.follows handler
      by_cases hij : i = j
      · subst hij
        obtain ⟨h',hi',hid,hmoves⟩ := hf.self h hi
        exact ⟨h',hi',hid,fun hearly => hlate (hmoves.early hearly)⟩
      · obtain ⟨h',hi',hr⟩ := hf.other i h hij hi
        exact ⟨h',hi',hr.sessionId,hr.phase ▸ hlate⟩
    | cleaned => exact ⟨h,hi,rfl,hlate⟩
    | accepted =>
      refine ⟨h,?_,rfl,hlate⟩
      rw [List.getElem?_append_left (List.getElem?_eq_some_iff.mp hi).1]
      exact hi
  · cases steps_of_next hn with
    | @acted j action y _ handler acts =>
      intro hmem
      by_cases hid : h.sessionId = y.sessionId
      · obtain rfl := ho.distinct hlen hi handler hid
        rw [hi] at handler
        cases handler
        obtain ⟨hmem,-⟩ | ⟨hann,-⟩ := acts.mem_own ho.consistent hmem
        · exact hgone hmem
        · exact hlate (.inr hann)
      · exact hgone ((acts.mem_ids ho.consistent hid).mp hmem)
    | cleaned currentTime =>
      exact fun hmem => hgone ((ho.consistent.mem_cleaned currentTime _).mp hmem).1
    | accepted => exact hgone

/-- A session that was removed while its task goes on never comes back, and nothing is queued for it
any more. -/
theorem removed_for_good (hr : Reachable (next cfg) new system) (hi : system.handlers[i]? = some h)
    (hlate : ¬ h.phase.Early) (hgone : h.sessionId ∉ system.broker.sessions.ids)
    (hrun : Run (next cfg) system hist system') (hlen : system'.handlers.length ≤ 2^32) :
    h.sessionId ∉ system'.broker.sessions.ids ∧ entered hist h.sessionId = [] := by
  have hall : system'.handlers.length ≤ 2^32 →
      Gone i h.sessionId system' ∧ entered hist h.sessionId = [] := by
    refine hrun.history (H := fun hist system => system.handlers.length ≤ 2^32 →
      Gone i h.sessionId system ∧ entered hist h.sessionId = []) ?_ ?_
    · exact fun _ => ⟨⟨owned_of_reachable hr,⟨h,hi,rfl,hlate⟩,hgone⟩,rfl⟩
    · intro hist system event system' _ ih hn hlen
      obtain ⟨hg,hnil⟩ := ih ((length_le_of_next hn).trans hlen)
      refine ⟨hg.next hn hlen,?_⟩
      rw [entered_concat,hnil,hg.owned.entering_missing hg.missing]
      rfl
  exact ⟨(hall hlen).1.missing,(hall hlen).2⟩

/-- A client is silent for so long that the cleanup removes its session, and then sends PINGREQ. -/
def silentEvents : List Event := arrival 0 [[0xC0,0x00]] ++ [.cleanup 1000000000000]
def wokenEvents : List Event := [.task 0 (.read 1000000000001),.task 0 (.serve 1000000000001)]

def silent : System 1 1 1 1 1 1 1 := (exec (next hostConfig) new silentEvents).get (by decide)
def silentTask : Handler 1 1 1 := silent.handlers.get ⟨0,by decide⟩
def answered : System 1 1 1 1 1 1 1 := (exec (next hostConfig) silent wokenEvents).get (by decide)
def answeredTrace : List (System 1 1 1 1 1 1 1 × Event) := trace (next hostConfig) silent wokenEvents

theorem removed_for_good_silent :
    silentTask.sessionId ∉ answered.broker.sessions.ids ∧
      entered answeredTrace silentTask.sessionId = [] :=
  removed_for_good (reachable_of_exec (Option.some_get (by decide)).symm) (i := 0)
    (List.getElem?_eq_getElem (by decide)) (by unfold Phase.Early; decide) (by decide)
    (run_trace (Option.some_get (by decide)).symm) (by decide)

end System

end TokioServer

end Picobroker
