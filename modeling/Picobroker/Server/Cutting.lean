import Picobroker.Server.Pool
import Picobroker.Server.Reading

/-! What the RP2040 server makes of the bytes of a client: it cuts them into frames in order, one for
each read of the socket at most. -/
namespace Picobroker
open Rust

variable {T P Q S M B w : ℕ}

/-- A buffer that shows the length of a frame and holds all of it starts with that frame. -/
lemma isFrame_take (hw : 32 ≤ w) {buffer : Bytes} {r k : ℕ} {u : Unit}
    (h : parseRemainingLengthFrom w buffer = .ok (r,k) u) (hlen : 1+k+r ≤ buffer.length) :
    IsFrame w (buffer.take (1+k+r)) r k := by
  have hne : buffer ≠ [] := List.ne_nil_of_length_pos (by omega)
  have hk := (parseRemainingLengthFrom_eq_ok hw hne).mp h
  refine ⟨?_,?_⟩
  · obtain ⟨first,tail,rfl⟩ := List.exists_cons_of_ne_nil hne
    rw [readVariableLength_eq_ok hw,show 1+k+r = k+r+1 by omega,List.take_succ_cons,List.tail_cons]
    exact lengthField_take hk (Nat.le_add_right k r)
  · rw [List.length_take,Nat.min_eq_left hlen]

namespace Rp2040Server

/-- Read and not yet processed. -/
def Phase.pending : Phase T P → List (Packet T P)
  | .received packet => [packet]
  | _ => []

namespace Slot

/-- A call of `read_packet` that waits for the rest of a frame has read the length of it. -/
def Waits (w : ℕ) (slot : Slot T P) : Prop :=
  ∀ totalLen, slot.phase = .filling totalLen → ∃ r k,
    parseRemainingLength w slot.buffer = .ok (r,k) () ∧ totalLen = 1+k+r

/-- The bytes that the client sent and no packet was made of. -/
def rest (slot : Slot T P) : Bytes := slot.buffer ++ slot.stream

variable {cfg : Config} {slot slot' : Slot T P} {action : Action} {now n totalLen : ℕ}

lemma rest_absorb (n : ℕ) (slot : Slot T P) : (slot.absorb n).rest = slot.rest := by
  rw [rest,rest,absorb,List.append_assoc,List.take_append_drop]

/-- A step makes no packet, or it reads bytes and makes one of the first frame of the rest. -/
inductive Cuts (w : ℕ) (slot : Slot T P) : Action → Slot T P → Prop
  | none {action : Action} {slot' : Slot T P} (pending : slot'.phase.pending = [])
      (rest : slot'.rest = slot.rest) : Cuts w slot action slot'
  | one {n now : ℕ} {slot' : Slot T P} {packet : Packet T P} {bytes : Bytes} {r k : ℕ} (pos : n ≠ 0)
      (phase : slot'.phase = .received packet) (frame : IsFrame w bytes r k)
      (decode : Packet.decode w bytes = .ok packet ()) (rest : slot.rest = bytes ++ slot'.rest) :
      Cuts w slot (.read n now) slot'

lemma cut_cuts (hw : 32 ≤ w) {r k : ℕ} (hn : n ≠ 0)
    (hparse : parseRemainingLength w (slot.absorb n).buffer = .ok (r,k) ())
    (hs : (slot.absorb n).cut w now (1+k+r) = some slot') :
    slot'.Waits w ∧ slot.Cuts w (.read n now) slot' := by
  obtain ⟨-,rfl⟩ | ⟨hle,packet,decode,rfl⟩ | rfl := cut_cases hs
  · refine ⟨?_,.none rfl (rest_absorb n slot)⟩
    intro totalLen he
    cases he
    exact ⟨r,k,hparse,rfl⟩
  · refine ⟨fun totalLen he => (by cases he),.one hn rfl (isFrame_take hw hparse hle) decode ?_⟩
    rw [← rest_absorb n slot,rest,rest,← List.append_assoc,List.take_append_drop]
  · exact ⟨fun totalLen he => (by cases he),.none rfl (rest_absorb n slot)⟩

/-- What a step of its own does to the bytes of a task. -/
lemma Steps.cuts (hw : 32 ≤ cfg.wordBits) (hs : slot.Steps cfg action slot')
    (hwaits : slot.Waits cfg.wordBits) : slot.phase.pending = [] ∧ slot'.Waits cfg.wordBits ∧
      slot.Cuts cfg.wordBits action slot' := by
  cases hs with
  | @started n now _ phase _ pos start =>
    refine ⟨by obtain he | he := phase <;> rw [he] <;> rfl,?_⟩
    obtain ⟨-,rfl⟩ | ⟨-,r,k,parsed,cut⟩ | rfl := start_cases start
    · exact ⟨fun totalLen he => (by cases he),.none rfl (rest_absorb n slot)⟩
    · exact cut_cuts hw pos parsed cut
    · exact ⟨fun totalLen he => (by cases he),.none rfl (rest_absorb n slot)⟩
  | filled phase _ pos cut =>
    obtain ⟨r,k,parsed,rfl⟩ := hwaits _ phase
    exact ⟨by rw [phase]; rfl,cut_cuts hw pos (parseRemainingLengthFrom_append hw parsed _) cut⟩
  | ended phase =>
    refine ⟨?_,fun totalLen he => (by cases he),.none rfl rfl⟩
    obtain he | ⟨totalLen,he⟩ := phase <;> rw [he] <;> rfl
  | broken phase =>
    refine ⟨?_,fun totalLen he => (by cases he),.none rfl rfl⟩
    obtain he | he | ⟨totalLen,he⟩ := phase <;> rw [he] <;> rfl
  | paused phase | expired phase | informed phase | finished phase | encoded phase | refused phase
  | sent phase | wrote phase | dropped phase =>
    exact ⟨by rw [phase]; rfl,fun totalLen he => (by cases he),.none rfl rfl⟩

end Slot

namespace System

variable {cfg : Config} {system system' : System T P Q S M B} {i j : Fin S} {action : Action}
  {hist : List (System T P Q S M B × Event S)}

/-- What the client sends that a step accepts at the task `i`. -/
def offeredBy (i : Fin S) (e : System T P Q S M B × Event S) : Option Bytes :=
  match e.2 with
  | .accept j _ stream => if j = i then some stream else none
  | _ => none

/-- What the last client of the task `i` sends. -/
def offered (i : Fin S) (hist : List (System T P Q S M B × Event S)) : Bytes :=
  (hist.filterMap (offeredBy i)).getLastD []

/-- The part of a run since the task `i` accepted its last client. -/
def visit (i : Fin S) (hist : List (System T P Q S M B × Event S)) :
    List (System T P Q S M B × Event S) := hist.rtakeWhile (fun e => (offeredBy i e).isNone)

/-- The packet that a step of the task `i` processes. -/
def processedBy (i : Fin S) (e : System T P Q S M B × Event S) : Option (Packet T P) :=
  match e.2 with
  | .task j _ => if j = i then (arriving e).map (fun a => a.2.1) else none
  | _ => none

/-- The packets of its client that the task `i` processed. -/
def processed (i : Fin S) (hist : List (System T P Q S M B × Event S)) : List (Packet T P) :=
  (visit i hist).filterMap (processedBy i)

/-- How often the task `i` has read bytes from the socket of its client. -/
def reads (i : Fin S) (hist : List (System T P Q S M B × Event S)) : ℕ :=
  (visit i hist).countP (fun e => match e.2 with
    | .task j (.read n _) => decide (j = i ∧ n ≠ 0)
    | _ => false)

lemma offeredBy_accept (i : Fin S) (ticks : UInt64) (stream : Bytes) (system : System T P Q S M B) :
    offeredBy i (system,.accept i ticks stream) = some stream := if_pos rfl

lemma offeredBy_of_ne {event : Event S} (hne : ∀ ticks stream, event ≠ .accept i ticks stream) :
    offeredBy i (system,event) = none := by
  cases event with
  | accept j ticks stream =>
    refine if_neg ?_
    rintro rfl
    exact hne ticks stream rfl
  | task => rfl
  | cleanup => rfl

section Concat

variable {e : System T P Q S M B × Event S}

/-- A client starts a visit of its own. -/
lemma visit_accept (hist : List (System T P Q S M B × Event S)) {stream : Bytes}
    (h : offeredBy i e = some stream) :
    offered i (hist ++ [e]) = stream ∧ visit i (hist ++ [e]) = [] := by
  refine ⟨?_,?_⟩
  · rw [offered,List.filterMap_append,List.filterMap_cons_some h,List.filterMap_nil,
      List.getLastD_concat]
  · rw [visit,List.rtakeWhile_concat,h]
    rfl

lemma visit_concat (h : offeredBy i e = none) :
    offered i (hist ++ [e]) = offered i hist ∧ visit i (hist ++ [e]) = visit i hist ++ [e] := by
  refine ⟨?_,?_⟩
  · rw [offered,List.filterMap_append,List.filterMap_cons_none h,List.filterMap_nil,List.append_nil]
    rfl
  · rw [visit,List.rtakeWhile_concat,h]
    rfl

lemma processed_concat (h : offeredBy i e = none) :
    processed i (hist ++ [e]) = processed i hist ++ (processedBy i e).toList := by
  rw [processed,(visit_concat h).2,List.filterMap_append]
  cases he : processedBy i e <;> simp [he,processed]

end Concat

/-- Which packets of its client a task has made, of which frames: they stand one behind the other at the
beginning of what the client sends, the rest is still to read or in the buffer, and each frame took a
read of the socket. -/
def CutOut (cfg : Config) (hist : List (System T P Q S M B × Event S)) (i : Fin S)
    (slot : Slot T P) : Prop :=
  ∃ frames, List.Forall₂ (fun f p => (∃ r k, IsFrame cfg.wordBits f r k) ∧
      Packet.decode cfg.wordBits f = .ok p ()) frames (processed i hist ++ slot.phase.pending) ∧
    offered i hist = frames.flatten ++ slot.rest ∧ frames.length ≤ reads i hist

section Concat

variable {e : System T P Q S M B × Event S} {slot slot' : Slot T P}

/-- A step that makes no packet leaves the account as it is. -/
lemma CutOut.keeps (hcut : CutOut cfg hist i slot) (he : offeredBy i e = none)
    (hpending : (processedBy i e).toList ++ slot'.phase.pending = slot.phase.pending)
    (hrest : slot'.rest = slot.rest) : CutOut cfg (hist ++ [e]) i slot' := by
  obtain ⟨frames,hframes,hoffered,hreads⟩ := hcut
  refine ⟨frames,?_,?_,?_⟩
  · rwa [processed_concat he,List.append_assoc,hpending]
  · rw [(visit_concat he).1,hrest,hoffered]
  · rw [reads,(visit_concat he).2,List.countP_append]
    exact hreads.trans (Nat.le_add_right _ _)

/-- A read that makes a packet takes one frame off the rest. -/
lemma CutOut.cuts {n now : ℕ} {packet : Packet T P} {bytes : Bytes} {r k : ℕ}
    (hcut : CutOut cfg hist i slot) (he : e.2 = .task i (.read n now)) (hn : n ≠ 0)
    (hprocessed : processedBy i e = none) (hpending : slot.phase.pending = [])
    (hphase : slot'.phase = .received packet) (hframe : IsFrame cfg.wordBits bytes r k)
    (hdecode : Packet.decode cfg.wordBits bytes = .ok packet ())
    (hrest : slot.rest = bytes ++ slot'.rest) : CutOut cfg (hist ++ [e]) i slot' := by
  have hoff : offeredBy i e = none := by
    simp only [offeredBy,he]
  obtain ⟨frames,hframes,hoffered,hreads⟩ := hcut
  rw [hpending,List.append_nil] at hframes
  refine ⟨frames ++ [bytes],?_,?_,?_⟩
  · rw [processed_concat hoff,hprocessed,Option.toList_none,List.append_nil,hphase]
    exact List.rel_append hframes (.cons ⟨⟨r,k,hframe⟩,hdecode⟩ .nil)
  · rw [(visit_concat hoff).1,hoffered,hrest,List.flatten_append,List.flatten_singleton,
      List.append_assoc]
  · rw [reads,(visit_concat hoff).2,List.countP_append,List.length_append]
    refine Nat.add_le_add hreads ?_
    simp [he,hn]

end Concat

lemma processedBy_of_ne (hne : ∀ currentTime, action ≠ .serve currentTime) :
    processedBy j (system,.task i action) = none := by
  simp only [processedBy,arriving_of_ne hne,Option.map_none,ite_self]

/-- What holds of a task after a run. -/
structure Reader (cfg : Config) (hist : List (System T P Q S M B × Event S)) (i : Fin S)
    (slot : Slot T P) : Prop where
  waits : slot.Waits cfg.wordBits
  cutOut : CutOut cfg hist i slot

lemma Reader.own (hr : Reader cfg hist i (system.slots i)) (hw : 32 ≤ cfg.wordBits)
    (ha : Acts cfg i system action system') :
    Reader cfg (hist ++ [(system,.task i action)]) i (system'.slots i) := by
  obtain ⟨hwaits,hcut⟩ := hr
  have hoff : offeredBy i (system,.task i action) = none := rfl
  -- a step that sets the phase
  have hset : ∀ {phase phase' : Phase T P} {slot : Slot T P}, (system.slots i).phase = phase →
      slot.phase = phase' → (∀ totalLen, phase' ≠ .filling totalLen) →
      slot.rest = (system.slots i).rest →
      (processedBy i (system,.task i action)).toList ++ phase'.pending = phase.pending →
      Reader cfg (hist ++ [(system,.task i action)]) i slot := by
    intro phase phase' slot hphase hphase' hfill hrest hpending
    refine ⟨fun totalLen he => absurd (hphase'.symm.trans he) (hfill totalLen),?_⟩
    exact hcut.keeps hoff (by rw [hphase,hphase',hpending]) hrest
  cases ha with
  | alone steps =>
    rw [put_slots_self]
    obtain ⟨hpending,hwaits',hcuts⟩ := steps.cuts hw hwaits
    have hnone : processedBy i (system,.task i action) = none := by
      apply processedBy_of_ne
      rintro currentTime rfl
      cases steps
    refine ⟨hwaits',?_⟩
    cases hcuts with
    | none pending rest =>
      refine hcut.keeps hoff ?_ rest
      rw [hnone,pending,hpending]
      rfl
    | one pos phase frame decode rest =>
      exact hcut.cuts rfl pos hnone hpending phase frame decode rest
  | served phase | failed phase =>
    rw [setPhase_slots_self]
    refine hset phase rfl (by simp) rfl ?_
    simp only [processedBy,arriving_serve phase]
    rfl
  | listed phase =>
    rw [put_slots_self]
    refine hset phase rfl (by simp) rfl ?_
    rw [processedBy_of_ne (by simp)]
    rfl
  | registered phase | refused phase | notified phase | woken phase | fetched phase | unlisted phase
  | left phase =>
    rw [setPhase_slots_self]
    refine hset phase rfl (by simp) rfl ?_
    rw [processedBy_of_ne (by simp)]
    rfl

lemma Reader.next (hr : ∀ i, Reader cfg hist i (system.slots i)) (hw : 32 ≤ cfg.wordBits)
    {event : Event S} (hn : system.next cfg event = some system') :
    ∀ i, Reader cfg (hist ++ [(system,event)]) i (system'.slots i) := by
  intro j
  cases steps_of_next hn with
  | @acted i action _ acts =>
    by_cases hj : j = i
    · subst hj
      exact (hr j).own hw acts
    · rw [acts.slots_of_ne hj]
      have hnone : processedBy j (system,.task i action) = none := if_neg (Ne.symm hj)
      refine ⟨(hr j).waits,(hr j).cutOut.keeps rfl ?_ rfl⟩
      rw [hnone]
      rfl
  | cleaned => exact ⟨(hr j).waits,(hr j).cutOut.keeps rfl rfl rfl⟩
  | @accepted i ticks stream phase =>
    by_cases hj : j = i
    · subst hj
      rw [put_slots_self]
      obtain ⟨hoffered,hvisit⟩ := visit_accept hist (offeredBy_accept j ticks stream system)
      refine ⟨fun totalLen he => (by cases he),[],?_,?_,Nat.zero_le _⟩
      · rw [processed,hvisit]
        exact .nil
      · rw [hoffered]
        rfl
    · rw [put_slots_of_ne hj]
      refine ⟨(hr j).waits,(hr j).cutOut.keeps (offeredBy_of_ne ?_) rfl rfl⟩
      rintro ticks' stream' he
      cases he
      exact hj rfl

lemma reader_of_run (hw : 32 ≤ cfg.wordBits) (hr : Run (next cfg) new hist system) (i : Fin S) :
    Reader cfg hist i (system.slots i) := by
  refine hr.history (H := fun hist system => ∀ i, Reader cfg hist i (system.slots i)) ?_
    (fun _ _ _ _ _ hr hn => Reader.next hr hw hn) i
  intro i
  exact ⟨fun totalLen he => (by cases he),[],.nil,rfl,le_rfl⟩

/-- Whatever the order in which the tasks of the pool run and the reads that the sockets return: the
packets that a task processes are those of the frames that its client sends, one after the other, none
of them twice and none left out, and no more of them than there were reads. -/
theorem frames_cut_out (hw : 32 ≤ cfg.wordBits) (hr : Run (next cfg) new hist system) (i : Fin S) :
    CutOut cfg hist i (system.slots i) := (reader_of_run hw hr i).cutOut

/-- Two PINGREQs arrive with one read. -/
def pingsEvents : List (Event 1) := arrival onlyTask [0xC0,0x00,0xC0,0x00] ++
  [.task onlyTask (.read 4 1),.task onlyTask (.serve 1),.task onlyTask .notify,
    .task onlyTask .notify,.task onlyTask .send,.task onlyTask (.write 2),.task onlyTask .send,
    .task onlyTask .send]

def pinged : System 1 1 1 1 1 1 := (exec (next boardConfig) new pingsEvents).get (by decide)
def pingsTrace : List (System 1 1 1 1 1 1 × Event 1) := trace (next boardConfig) new pingsEvents

theorem frames_cut_out_pings : CutOut boardConfig pingsTrace onlyTask (pinged.slots onlyTask) :=
  frames_cut_out (by decide) (run_trace (Option.some_get (by decide)).symm) onlyTask

/-- The second one waits in the buffer, and no read is left that would take it out. -/
example : (pinged.slots onlyTask).phase = .selecting ∧
    (pinged.slots onlyTask).buffer = [0xC0,0x00] ∧ (pinged.slots onlyTask).stream = [] ∧
    (pinged.slots onlyTask).socket = [0xD0,0x00] := by decide

end System

end Rp2040Server

end Picobroker
