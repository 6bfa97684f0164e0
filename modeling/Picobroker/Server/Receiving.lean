import Picobroker.Server.Pipeline

/-! What the Tokio server makes of the bytes of a client: every turn of `tokio::select!` may drop a
started `read_packet`, and the packets that a task processes are still those of an undisturbed reader. -/
namespace Picobroker
open Rust

variable {T P Q S M B F w : ℕ}

namespace TokioServer

section Absorb

variable {buffer chunk : Bytes} {chunks : List Bytes} {target : ℕ}

lemma fillLoop_of_le (h : target ≤ buffer.length) :
    Source.fillLoop target chunks buffer = (true,⟨buffer,chunks⟩) := by
  cases chunks with
  | nil => rw [Source.fillLoop,decide_eq_true h]
  | cons chunk chunks => rw [Source.fillLoop,if_pos h]

/-- A chunk that is needed can as well be in the buffer already. -/
lemma fillLoop_absorb (h : buffer.length < target) (hne : chunk ≠ []) :
    Source.fillLoop target (chunk::chunks) buffer =
      Source.fillLoop target chunks (buffer ++ chunk) := by
  rw [Source.fillLoop,if_neg (Nat.not_le.mpr h),if_neg (List.length_eq_zero_iff.not.mpr hne)]

lemma parse_append (hw : 32 ≤ w) {r k : ℕ} {u : Unit}
    (h : parseRemainingLength w buffer = .ok (r,k) u) (bytes : Bytes) :
    parseRemainingLength w (buffer ++ bytes) = .ok (r,k) () := parseRemainingLengthFrom_append hw h bytes

/-- A dropped `read_packet` loses nothing: what it has read stays in the buffer, and the next one
returns what it would have returned. -/
lemma readPacket_absorb (hw : 32 ≤ w) (hne : chunk ≠ []) (hu : Unfinished w buffer) :
    (readPacket w : Proc Source ProtocolError (Option (Packet T P))) ⟨buffer ++ chunk,chunks⟩ =
      readPacket w ⟨buffer,chunk::chunks⟩ := by
  by_cases hstart : buffer.length < 2
  · rw [readPacket,Proc.bind_apply,Proc.bind_apply,Source.fill_apply,Source.fill_apply,
      fillLoop_absorb hstart hne]
  · obtain hu | hu := hu
    · exact absurd hu hstart
    · split at hu
      next remainingLen varLenBytes u parsed =>
        have hle : 2 ≤ buffer.length := Nat.not_lt.mp hstart
        have hle' : 2 ≤ (buffer ++ chunk).length := by
          rw [List.length_append]
          exact hle.trans (Nat.le_add_right _ _)
        have hframe : (readFrame w : Proc Source ProtocolError (Packet T P)) ⟨buffer ++ chunk,chunks⟩ =
            readFrame w ⟨buffer,chunk::chunks⟩ := by
          simp only [readFrame,Proc.bind_apply,Proc.get_apply,Outcome.andThen_ok,Proc.call_apply,parsed,
            parse_append hw parsed chunk,Outcome.mapState_ok,Source.fill_apply,fillLoop_absorb hu hne]
        simp only [readPacket,Proc.bind_apply,Source.fill_apply,fillLoop_of_le hle,fillLoop_of_le hle',
          Outcome.andThen_ok,Bool.true_eq_false,if_false,hframe]
      next => exact hu.elim

end Absorb

/-- Repeated calls return these packets one by one, and lead here. -/
def Reads (w : ℕ) : List (Packet T P) → Source → Source → Prop
  | [],s,t => s = t
  | p::ps,s,t => ∃ s', readPacket w s = .ok (some p) s' ∧ Reads w ps s' t

lemma Reads.concat {packets : List (Packet T P)} {packet : Packet T P} {s t u : Source}
    (h : Reads w packets s t) (hread : readPacket w t = .ok (some packet) u) :
    Reads w (packets ++ [packet]) s u := by
  induction packets generalizing s with
  | nil =>
    cases h
    exact ⟨u,hread,rfl⟩
  | cons p ps ih =>
    obtain ⟨s',hs,h⟩ := h
    exact ⟨s',hs,ih h⟩

section Frames

variable {s t : Source} {frame rest : Bytes} {frames : List Bytes} {r k : ℕ}

/-- A frame that the stream does not hold to its end is never returned. -/
lemma readPacket_short (hw : 32 ≤ w) (hframe : IsFrame w frame r k) (hs : s.stream ++ rest = frame)
    (hrest : rest ≠ []) (hflow : s.Flowing) (packet : Packet T P) :
    readPacket w s ≠ .ok (some packet) t := by
  have hlen : s.stream.length < 1+k+r := by
    rw [← hframe.2,← hs,List.length_append]
    exact Nat.lt_add_of_pos_right (List.length_pos_iff.mpr hrest)
  intro h
  rw [readPacket,Proc.bind_apply] at h
  by_cases hstart : 2 ≤ s.stream.length
  · obtain ⟨u,hu,hstream,hb,hf,-⟩ := Source.fill_reaches (ε := ProtocolError) hflow hstart
    -- the rest of the frame as one more chunk
    have hwhole : (⟨u.buffer,u.chunks ++ [rest]⟩ : Source).stream = frame ++ [] := by
      rw [List.append_nil,← hs,← hstream,Source.stream,Source.stream,List.flatten_append,
        List.flatten_singleton,List.append_assoc]
    rw [hu,Outcome.andThen_ok,if_neg (by simp),Proc.bind_apply,readFrame,Proc.bind_apply,
      Proc.get_apply,Outcome.andThen_ok,Proc.bind_apply,Proc.call_apply] at h
    by_cases hk : 1+k ≤ u.buffer.length
    · rw [parse_whole hw hframe hwhole hk] at h
      simp only [Outcome.mapState_ok,Outcome.andThen_ok,Proc.bind_apply] at h
      rw [Source.fill_ends hf (hstream ▸ hlen),Outcome.andThen_ok,Proc.bind_apply,Proc.get_apply,
        Outcome.andThen_ok,Proc.bind_apply,Proc.failIf_pos rfl] at h
      cases h
    · obtain ⟨e,he⟩ := parse_cut hw hframe hwhole (show 0 < u.buffer.length by omega)
        (Nat.not_le.mp hk)
      rw [show parseRemainingLength w u.buffer = .err e () from he] at h
      cases h
  · rw [Source.fill_ends hflow (Nat.not_le.mp hstart)] at h
    cases h

/-- Calls that return packets return those of the frames that the stream starts with. -/
lemma Reads.prefix_frames (hw : 32 ≤ w) {packets packets' : List (Packet T P)}
    (h : Reads w packets s t) (hflow : s.Flowing)
    (hframes : List.Forall₂ (fun f p => (∃ r k, IsFrame w f r k) ∧ Packet.decode w f = .ok p ())
      frames packets') (hs : s.stream <+: frames.flatten) : packets <+: packets' := by
  induction packets generalizing s frames packets' with
  | nil => exact List.nil_prefix
  | cons p ps ih =>
    obtain ⟨s',hread,h⟩ := h
    cases hframes with
    | nil =>
      obtain ⟨u,hu⟩ := readPacket_end (T := T) (P := P) (w := w) hflow (List.prefix_nil.mp hs)
      rw [hread] at hu
      cases hu
    | @cons frame p' frames ps' hframe hrest =>
      obtain ⟨⟨r,k,hf⟩,hdecode⟩ := hframe
      rw [List.flatten_cons] at hs
      by_cases hle : frame.length ≤ s.stream.length
      · obtain ⟨rest,hstream⟩ : frame <+: s.stream :=
          List.prefix_of_prefix_length_le (List.prefix_append _ _) hs hle
        obtain ⟨-,e,u,hu⟩ | ⟨-,u,hu,hrest',hflow',-⟩ :=
          readPacket_frame hw hf hdecode hstream.symm hflow
        · rw [hread] at hu
          cases hu
        · rw [hread] at hu
          cases hu
          rw [← hstream,List.prefix_append_right_inj,← hrest'] at hs
          exact (List.prefix_cons_inj p).mpr (ih h hflow' hrest hs)
      · obtain ⟨rest,hstream⟩ : s.stream <+: frame :=
          List.prefix_of_prefix_length_le hs (List.prefix_append _ _) (Nat.le_of_not_le hle)
        refine absurd hread (readPacket_short hw hf hstream ?_ hflow p)
        rintro rfl
        rw [List.append_nil] at hstream
        rw [hstream] at hle
        exact hle le_rfl

end Frames

/-- Read and not yet processed. -/
def Phase.pending : Phase T P → List (Packet T P)
  | .received packet => [packet]
  | _ => []

/-- The reader of a task and one that is never disturbed return the same. -/
def Handler.Follows (w : ℕ) (h : Handler T P F) (source : Source) : Prop :=
  (readPacket w : Proc Source ProtocolError (Option (Packet T P))) h.input = readPacket w source

/-- What a step of its own does to the input of a task. -/
lemma Handler.Steps.reads {cfg : Config} {h h' : Handler T P F} {action : Action}
    (hs : h.Steps cfg action h') (hw : 32 ≤ cfg.wordBits) : h.phase.pending = [] ∧
    ((h'.phase.pending = [] ∧ (h'.phase.Staying → h'.Follows cfg.wordBits h.input)) ∨
      ∃ packet, readPacket cfg.wordBits h.input = .ok (some packet) h'.input ∧
        h'.phase = .received packet) := by
  cases hs with
  | absorbed phase arrived nonempty unfinished =>
    rw [phase]
    refine ⟨rfl,.inl ⟨rfl,fun _ => ?_⟩⟩
    rw [Handler.Follows,readPacket_absorb hw nonempty unfinished,← arrived]
  | received phase read =>
    rw [phase]
    exact ⟨rfl,.inr ⟨_,read,rfl⟩⟩
  | ended phase | readPanicked phase | sendPanicked phase | broken phase | expired phase =>
    rw [phase]
    exact ⟨rfl,.inl ⟨rfl,fun hl => hl.elim⟩⟩
  | informed phase | woken phase | finished phase | queued phase | refused phase | picked phase
  | wrote phase | flushed phase | stayed phase =>
    rw [phase]
    exact ⟨rfl,.inl ⟨rfl,fun _ => rfl⟩⟩

namespace System

variable {cfg : Config} {system system' : System T P Q S M B F} {i k : ℕ} {h h' x x' : Handler T P F}
  {action : Action} {hist : List (System T P Q S M B F × Event)}

/-- The packet that a step of the task `i` processes. -/
def processedBy (i : ℕ) (e : System T P Q S M B F × Event) : Option (Packet T P) :=
  match e.2 with
  | .task j _ => if j = i then (arriving e).map (fun a => a.2.1) else none
  | _ => none

/-- The packets that the task `i` processed in the course of a run. -/
def processed (i : ℕ) (hist : List (System T P Q S M B F × Event)) : List (Packet T P) :=
  hist.filterMap (processedBy i)

/-- What the clients of a run send, in the order in which they come. -/
def offered (hist : List (System T P Q S M B F × Event)) : List (List Bytes) :=
  hist.filterMap (fun e => match e.2 with
    | .accept _ chunks => some chunks
    | _ => none)

lemma processed_concat (e : System T P Q S M B F × Event) :
    processed i (hist ++ [e]) = processed i hist ++ (processedBy i e).toList := by
  rw [processed,List.filterMap_append]
  cases he : processedBy i e <;> simp [he,processed]

lemma processedBy_of_ne (hne : ∀ currentTime, action ≠ .serve currentTime) :
    processedBy k (system,.task i action) = none := by
  unfold processedBy
  cases ha : arriving (system,.task i action) with
  | none => simp
  | some a =>
    obtain ⟨s,packet,currentTime⟩ := a
    obtain ⟨j,h,he,-⟩ := arriving_eq_some ha
    cases he
    exact absurd rfl (hne currentTime)

lemma processedBy_serve {packet : Packet T P} {currentTime : ℕ} (hi : system.handlers[i]? = some h)
    (phase : h.phase = .received packet) :
    processedBy i (system,.task i (.serve currentTime)) = some packet := by
  simp [processedBy,arriving,hi,phase]

/-- What a step does to the packets of its own task. -/
lemma Acts.own_reads (ha : Acts cfg i h system action system') (hw : 32 ≤ cfg.wordBits)
    (hi : system.handlers[i]? = some h) (hi' : system'.handlers[i]? = some h') :
    ((processedBy i (system,.task i action)).toList ++ h'.phase.pending = h.phase.pending ∧
      (h'.phase.Staying → h.phase.Staying ∧ h'.Follows cfg.wordBits h.input)) ∨
    (processedBy i (system,.task i action) = none ∧ h.phase.pending = [] ∧ h.phase.Staying ∧
      ∃ packet, readPacket cfg.wordBits h.input = .ok (some packet) h'.input ∧
        h'.phase = .received packet) := by
  have hself : ∃ h₁, system.handlers[i]? = some h₁ ∧ h.Receives h₁ := ⟨h,hi,.refl h⟩
  -- a step that leaves the input alone
  have hset : ∀ {phase phase' : Phase T P} {system₁ : System T P Q S M B F},
      (∃ h₁, system₁.handlers[i]? = some h₁ ∧ h.Receives h₁) →
      (system₁.setPhase i phase').handlers[i]? = some h' → h.phase = phase →
      (phase'.Staying → phase.Staying) →
      (processedBy i (system,.task i action)).toList ++ phase'.pending = phase.pending →
      (processedBy i (system,.task i action)).toList ++ h'.phase.pending = h.phase.pending ∧
        (h'.phase.Staying → h.phase.Staying ∧ h'.Follows cfg.wordBits h.input) := by
    intro phase phase' system₁ hr hi₁ hphase hstays hpending
    obtain ⟨notify,rfl⟩ := setPhase_own hr hi₁
    rw [hphase]
    exact ⟨hpending,fun hs => ⟨hstays hs,rfl⟩⟩
  cases ha with
  | @alone action h₁ step =>
    obtain ⟨hpending,hcases⟩ := step.reads hw
    have hnone : processedBy i (system,.task i action) = none := by
      apply processedBy_of_ne
      rintro currentTime rfl
      cases step
    have hlive := Phase.Live.staying (.inr step.moves.2.1)
    obtain ⟨y,hy,he⟩ := update_handler.mp hi'
    rw [if_pos rfl] at he
    subst he
    rw [hnone,hpending]
    obtain ⟨hpending',hfollows⟩ | hread := hcases
    · exact .inl ⟨hpending',fun hs => ⟨hlive,hfollows hs⟩⟩
    · exact .inr ⟨rfl,rfl,hlive,hread⟩
  | inserted phase =>
    obtain ⟨y,hy,he⟩ := update_handler.mp hi'
    change system.handlers[i]? = _ at hy
    rw [hi] at hy
    cases hy
    rw [if_pos rfl] at he
    subst he
    rw [processedBy_of_ne (by simp),phase]
    refine .inl ⟨?_,fun _ => ⟨trivial,rfl⟩⟩
    split_ifs <;> rfl
  | served phase =>
    refine .inl (hset hself hi' phase (fun _ => trivial) ?_)
    rw [processedBy_serve hi phase]
    rfl
  | failed phase =>
    refine .inl (hset hself hi' phase (fun _ => trivial) ?_)
    rw [processedBy_serve hi phase]
    rfl
  | notified phase _ signals | resumed phase signals =>
    refine .inl (hset (signals.receives hi) hi' phase (fun _ => trivial) ?_)
    rw [processedBy_of_ne (by simp)]
    rfl
  | announced phase | joined phase | skipped phase | blocked phase | fetched phase =>
    refine .inl (hset hself hi' phase (fun _ => trivial) ?_)
    rw [processedBy_of_ne (by simp)]
    rfl
  | rejected phase | forgot phase | unannounced phase | left phase =>
    refine .inl (hset hself hi' phase (fun hs => hs.elim) ?_)
    rw [processedBy_of_ne (by simp)]
    rfl

/-- What a task has processed and read, and where its reader stands. -/
def Undisturbed (cfg : Config) (hist : List (System T P Q S M B F × Event)) (k : ℕ)
    (x : Handler T P F) : Prop :=
  ∃ chunks source, (offered hist)[k]? = some chunks ∧
    Reads cfg.wordBits (processed k hist ++ x.phase.pending) ⟨[],chunks⟩ source ∧
    (x.phase.Staying → x.Follows cfg.wordBits source)

lemma offered_accept (secs : UInt64) (chunks : List Bytes) :
    offered (hist ++ [(system,.accept secs chunks)]) = offered hist ++ [chunks] := by
  rw [offered,List.filterMap_append]
  rfl

lemma offered_of_ne {event : Event} (hne : ∀ secs chunks, event ≠ .accept secs chunks) :
    offered (hist ++ [(system,event)]) = offered hist := by
  rw [offered,List.filterMap_append]
  cases event with
  | accept secs chunks => exact absurd rfl (hne secs chunks)
  | _ => exact List.append_nil _

lemma Undisturbed.acts (hu : Undisturbed cfg hist k x) (ha : Acts cfg i h system action system')
    (hw : 32 ≤ cfg.wordBits) (hi : system.handlers[i]? = some h) (hx : system.handlers[k]? = some x)
    (hx' : system'.handlers[k]? = some x') :
    Undisturbed cfg (hist ++ [(system,.task i action)]) k x' := by
  obtain ⟨chunks,source,hoffered,hreads,hfollows⟩ := hu
  have hsame : offered (hist ++ [(system,.task i action)]) = offered hist := offered_of_ne (by simp)
  rw [← hsame] at hoffered
  by_cases hk : k = i
  · subst hk
    rw [hi] at hx
    cases hx
    obtain ⟨hpending,hstays⟩ | ⟨hnone,hpending,hstaying,packet,hread,hphase⟩ :=
      ha.own_reads hw hi hx'
    · refine ⟨chunks,source,hoffered,?_,?_⟩
      · rwa [processed_concat,List.append_assoc,hpending]
      · intro hs
        exact (hstays hs).2.trans (hfollows (hstays hs).1)
    · rw [hpending,List.append_nil] at hreads
      refine ⟨chunks,x'.input,hoffered,?_,fun _ => rfl⟩
      rw [processed_concat,hnone,hphase,Option.toList_none,List.append_nil]
      exact hreads.concat ((hfollows hstaying).symm.trans hread)
  · obtain ⟨y,hy,-,hother,-⟩ := (ha.follows hi).back hx'
    rw [hx] at hy
    cases hy
    have hnone : processedBy k (system,.task i action) = none := if_neg (Ne.symm hk)
    refine ⟨chunks,source,hoffered,?_,?_⟩
    · rw [processed_concat,hnone,Option.toList_none,List.append_nil,(hother hk).phase]
      exact hreads
    · rw [(hother hk).same]
      exact hfollows

/-- What is known of the packets of all tasks after a run. -/
structure Consumed (cfg : Config) (hist : List (System T P Q S M B F × Event))
    (system : System T P Q S M B F) : Prop where
  length : (offered hist).length = system.handlers.length
  fresh : ∀ k, system.handlers.length ≤ k → processed k hist = []
  undisturbed : ∀ (k : ℕ) (x : Handler T P F), system.handlers[k]? = some x → Undisturbed cfg hist k x

lemma Consumed.next (hc : Consumed cfg hist system) (hw : 32 ≤ cfg.wordBits) {event : Event}
    (hn : system.next cfg event = some system') :
    Consumed cfg (hist ++ [(system,event)]) system' := by
  cases steps_of_next hn with
  | @acted i action h _ handler acts =>
    have hlen := (acts.follows handler).length
    refine ⟨?_,?_,?_⟩
    · rw [offered_of_ne (by simp),hlen]
      exact hc.length
    · intro k hk
      rw [hlen] at hk
      have hne : i ≠ k := by
        have hlt := (List.getElem?_eq_some_iff.mp handler).1
        omega
      have hnone : processedBy k (system,.task i action) = none := if_neg hne
      rw [processed_concat,hc.fresh k hk,hnone]
      rfl
    · intro k x' hx'
      obtain ⟨x,hx,-⟩ := (acts.follows handler).back hx'
      exact (hc.undisturbed k x hx).acts acts hw handler hx hx'
  | cleaned currentTime =>
    refine ⟨?_,?_,?_⟩
    · rw [offered_of_ne (by simp)]
      exact hc.length
    · intro k hk
      rw [processed_concat,hc.fresh k hk]
      rfl
    · intro k x hx
      obtain ⟨chunks,source,hoffered,hreads,hfollows⟩ := hc.undisturbed k x hx
      refine ⟨chunks,source,?_,?_,hfollows⟩
      · rwa [offered_of_ne (by simp)]
      · rw [processed_concat,show processedBy k (system,.cleanup currentTime) = none from rfl,
          Option.toList_none,List.append_nil]
        exact hreads
  | accepted secs chunks =>
    have hsame : ∀ k, processed k (hist ++ [(system,.accept secs chunks)]) = processed k hist := by
      intro k
      rw [processed_concat,show processedBy k (system,.accept secs chunks) = none from rfl,
        Option.toList_none,List.append_nil]
    refine ⟨?_,?_,?_⟩
    · rw [offered_accept,List.length_append,List.length_append,hc.length]
      rfl
    · intro k hk
      rw [List.length_append] at hk
      rw [hsame,hc.fresh k ((Nat.le_add_right _ _).trans hk)]
    · intro k x hx
      rw [List.getElem?_append] at hx
      split_ifs at hx with hk
      · obtain ⟨chunks',source,hoffered,hreads,hfollows⟩ := hc.undisturbed k x hx
        refine ⟨chunks',source,?_,?_,hfollows⟩
        · rw [offered_accept,List.getElem?_append_left (List.getElem?_eq_some_iff.mp hoffered).1]
          exact hoffered
        · rw [hsame]
          exact hreads
      · have hlt := (List.getElem?_eq_some_iff.mp hx).1
        rw [List.length_singleton] at hlt
        obtain rfl : k = system.handlers.length := by omega
        have hnew := List.mem_singleton.mp (List.mem_of_getElem? hx)
        subst hnew
        refine ⟨chunks,⟨[],chunks⟩,?_,?_,fun _ => rfl⟩
        · rw [offered_accept,← hc.length,List.getElem?_concat_length]
        · rw [hsame,hc.fresh _ le_rfl]
          rfl

/-- Whatever the order in which the tasks run and the branches that `tokio::select!` takes, a task
processes the packets that calls of `read_packet` return which are never dropped, one after the other,
none of them twice and none left out. -/
theorem read_undisturbed (hw : 32 ≤ cfg.wordBits) (hr : Run (next cfg) new hist system)
    (hi : system.handlers[i]? = some h) : Undisturbed cfg hist i h := by
  refine (hr.history (H := Consumed cfg) ?_ (fun _ _ _ _ _ hc hn => hc.next hw hn)).undisturbed i h hi
  exact ⟨rfl,fun _ _ => rfl,fun k x hx => by cases hx⟩

/-- A PINGREQ arrives in two chunks, and after the first one another branch is taken. -/
def pingEvents : List Event := arrival 0 [[0xC0],[0x00]] ++ [.task 0 .absorb,.task 0 (.timeout 1),
  .task 0 (.read 2),.task 0 (.serve 2)]

def pinged : System 1 1 1 1 1 1 1 := (exec (next hostConfig) new pingEvents).get (by decide)
def pingedTask : Handler 1 1 1 := pinged.handlers.get ⟨0,by decide⟩
def pingTrace : List (System 1 1 1 1 1 1 1 × Event) := trace (next hostConfig) new pingEvents

lemma ping_run : Run (next hostConfig) new pingTrace pinged :=
  run_trace (Option.some_get (by decide)).symm

theorem read_undisturbed_ping : Undisturbed hostConfig pingTrace 0 pingedTask :=
  read_undisturbed (by decide) ping_run (List.getElem?_eq_getElem (by decide))

/-- When the client sends frames that the decoder accepts, or the beginning of them, the packets that
its task processed are the first of those it sent, in whatever chunks they come. -/
theorem processed_in_order (hw : 32 ≤ cfg.wordBits) (hr : Run (next cfg) new hist system)
    (hi : system.handlers[i]? = some h) {chunks frames : List Bytes} {packets : List (Packet T P)}
    (hoffered : (offered hist)[i]? = some chunks)
    (hframes : List.Forall₂ (fun f p => (∃ r k, IsFrame cfg.wordBits f r k) ∧
      Packet.decode cfg.wordBits f = .ok p ()) frames packets)
    (hne : ∀ chunk ∈ chunks, chunk ≠ []) (hsent : chunks.flatten <+: frames.flatten) :
    processed i hist ++ h.phase.pending <+: packets := by
  obtain ⟨chunks',source,hoffered',hreads,-⟩ := read_undisturbed hw hr hi
  rw [hoffered] at hoffered'
  cases hoffered'
  exact hreads.prefix_frames hw hne hframes hsent

theorem processed_in_order_ping :
    processed 0 pingTrace ++ pingedTask.phase.pending <+: [(.pingReq {} : Packet 1 1)] := by
  have hframe : IsFrame 64 [0xC0,0x00] 0 1 := ⟨by decide,by decide⟩
  have hdecode : Packet.decode 64 [0xC0,0x00] = .ok (.pingReq {} : Packet 1 1) () := by decide
  exact processed_in_order (by decide) ping_run (List.getElem?_eq_getElem (by decide))
    (show (offered pingTrace)[0]? = some [[0xC0],[0x00]] by decide)
    (.cons ⟨⟨0,1,hframe⟩,hdecode⟩ .nil) (by decide) (by decide)

end System

end TokioServer

end Picobroker
