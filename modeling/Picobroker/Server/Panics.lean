import Picobroker.Server.Sending

/-! When the firmware of the RP2040 server panics, in a build with overflow checks: for one kind of read
only, and for a scan of the clean-up task with too much to remove. -/
namespace Picobroker
open Rust

variable {T P Q S M B : ℕ}

/-- Whatever a new session is called, the broker registers it or says why not. -/
lemma PicoBroker.Consistent.registerNewSession_returns {broker : PicoBroker T P Q S M B}
    (h : broker.Consistent broker.sessions.toMap) (hS : S ≤ 65535) (s : ℕ) (keepAliveSecs : UInt16)
    (currentTime : ℕ) : (broker.registerNewSession s keepAliveSecs currentTime).Returns := by
  rw [PicoBroker.registerNewSession,PicoBroker.onSessions,Proc.zoom_apply,Outcome.returns_mapState]
  have hj := SessionRegistry.registerNewSession_joins h.shows s keepAliveSecs currentTime
  generalize SessionRegistry.registerNewSession s keepAliveSecs currentTime broker.sessions = o at hj ⊢
  cases hj with
  | full => exact Outcome.returns_err _ _
  | «exists» => exact Outcome.returns_err _ _
  | overflow _ capacity => omega
  | joined => exact Outcome.returns_ok _ _

/-- A packet of a kind with a fixed size that announces so many bytes that the subtraction in its checks
underflows. -/
def Underflows (bytes : Bytes) (r : ℕ) : Prop :=
  ∃ (kind : FixedSizeKind) (first : UInt8), bytes.head? = some first ∧
    PacketType.from' (first >>> 4) = kind.packetType ∧ kind.lengthLimit ≤ r

section Frame

variable {w r k : ℕ} {first : UInt8} {tail : Bytes}

lemma underflows_iff {kind : FixedSizeKind}
    (ht : PacketType.from' (first >>> 4) = kind.packetType) :
    Underflows (first::tail) r ↔ kind.lengthLimit ≤ r := by
  constructor
  · rintro ⟨kind',_,⟨⟩,ht',hr⟩
    rw [ht] at ht'
    cases kind <;> cases kind' <;> first | exact hr | cases ht'
  · exact fun hr => ⟨kind,first,rfl,ht,hr⟩

lemma not_underflows (ht : ∀ kind : FixedSizeKind, PacketType.from' (first >>> 4) ≠ kind.packetType) :
    ¬ Underflows (first::tail) r := by
  rintro ⟨kind,_,⟨⟩,ht',-⟩
  exact ht kind ht'

lemma FixedSizeKind.frame_decode_returns (hw : 32 ≤ w) (kind : FixedSizeKind)
    (ht : PacketType.from' (first >>> 4) = kind.packetType) (hk : lengthField tail = .complete r k)
    (hlen : tail.length = k+r) :
    (Packet.decode w (first::tail) : Outcome Unit ProtocolError (Packet T P)).Returns ↔
      ¬ kind.lengthLimit ≤ r := by
  have hpos : 0 < kind.packetSize := by cases kind <;> decide
  have hsize : kind.packetSize ≤ kind.lengthLimit := by cases kind <;> decide
  rw [kind.decode_dispatch ht,kind.decode_returns_iff_header,decodeHeader_returns hw hpos]
  apply not_congr
  constructor
  · rintro ⟨-,_,_,⟨⟩,-,hpanics⟩
    rw [LengthPanics,hk] at hpanics
    exact Nat.le_of_not_lt (fun hlt => hpanics ((kind.fitsPacketSize_iff r).mpr hlt))
  · intro hr
    refine ⟨?_,first,tail,rfl,ht,?_⟩
    · rw [List.length_cons]
      omega
    · rw [LengthPanics,hk]
      exact fun hfits => Nat.not_lt.mpr hr ((kind.fitsPacketSize_iff r).mp hfits)

lemma SubAckPacket.frame_decode_returns (hw : 32 ≤ w) (hk : lengthField tail = .complete r k) :
    (SubAckPacket.decode w (first::tail) ()).Returns := by
  by_cases hlen : (first::tail).length < 5
  · rw [SubAckPacket.decode,Proc.bind_apply,Proc.failIf_pos hlen]
    exact Outcome.returns_err _ _
  · rw [List.length_cons] at hlen
    obtain ⟨b₁,b₂,b₃,b₄,rest,rfl⟩ := exists_four (show 4 ≤ tail.length by omega)
    rw [subAck_decode_cons,(readVariableLength_eq_ok hw).mpr hk,Outcome.andThen_ok]
    split
    · exact Outcome.returns_err _ _
    · refine Proc.returns_bind (Proc.failIf_returns _ _ _) (fun _ _ _ => ?_)
      exact Proc.returns_bind (Proc.okOr_returns _ _ _) (fun _ _ _ => Outcome.returns_ok _ _)

lemma Packet.not_crashes (hk : lengthField tail = .complete r k) (hlen : tail.length = k+r) :
    ¬ Packet.Crashes T w first tail := by
  have hlength : ¬ Packet.LengthOverflows w tail := by
    rintro ⟨fifth,hfifth,-⟩
    rw [hk] at hfifth
    cases hfifth
  unfold Packet.Crashes
  split_ifs
  · rintro ⟨qos,-,ho | he⟩
    · exact hlength ho
    · exact not_endsInHead hk hlen he
  · exact hlength

/-- On a frame that was cut out exactly, the decoder panics in these cases only. -/
lemma Packet.frame_decode_returns (hw : 32 ≤ w) {bytes : Bytes} (hframe : IsFrame w bytes r k) :
    (Packet.decode w bytes : Outcome Unit ProtocolError (Packet T P)).Returns ↔
      ¬ Underflows bytes r := by
  obtain ⟨first,tail,rfl⟩ := List.exists_cons_of_length_pos hframe.length_pos
  have hk : lengthField tail = .complete r k := (readVariableLength_eq_ok hw).mp hframe.1
  have hlen : tail.length = k+r := by
    have hlen := hframe.2
    rw [List.length_cons] at hlen
    omega
  have hfixed : ∀ kind : FixedSizeKind, PacketType.from' (first >>> 4) = kind.packetType →
      ((Packet.decode w (first::tail) : Outcome Unit ProtocolError (Packet T P)).Returns ↔
        ¬ Underflows (first::tail) r) := by
    intro kind ht
    rw [underflows_iff ht]
    exact kind.frame_decode_returns hw ht hk hlen
  have hother : ∀ {packetType : PacketType}, PacketType.from' (first >>> 4) = packetType →
      (∀ kind : FixedSizeKind, packetType ≠ kind.packetType) →
      (Packet.decode w (first::tail) : Outcome Unit ProtocolError (Packet T P)).Returns →
      ((Packet.decode w (first::tail) : Outcome Unit ProtocolError (Packet T P)).Returns ↔
        ¬ Underflows (first::tail) r) := by
    rintro packetType rfl hne hr
    exact iff_of_true hr (not_underflows hne)
  have hvariable : Packet.VariableSize (PacketType.from' (first >>> 4)) →
      (Packet.decode w (first::tail) : Outcome Unit ProtocolError (Packet T P)).Returns :=
    fun hv => (Packet.decode_returns_variable hw first tail hv).mpr (Packet.not_crashes hk hlen)
  have hstart : ∀ f : UInt8 → Proc Unit ProtocolError (Packet T P),
      (index (first::tail) 0 >>= f) () = f first () := fun _ => rfl
  cases ht : PacketType.from' (first >>> 4) with
  | connect | publish | subscribe | unsubscribe =>
    refine hother ht (fun kind => by cases kind <;> decide) (hvariable ?_)
    simp [ht,Packet.VariableSize]
  | subAck =>
    refine hother ht (fun kind => by cases kind <;> decide) ?_
    rw [Packet.decode,hstart]
    simp only [ht]
    exact returns_map.mpr (SubAckPacket.frame_decode_returns hw hk)
  | reserved | reserved2 =>
    refine hother ht (fun kind => by cases kind <;> decide) ?_
    rw [Packet.decode,hstart]
    simp only [ht]
    exact Outcome.returns_err _ _
  | connAck => exact hfixed .connAck ht
  | pubAck => exact hfixed .pubAck ht
  | pubRec => exact hfixed .pubRec ht
  | pubRel => exact hfixed .pubRel ht
  | pubComp => exact hfixed .pubComp ht
  | unsubAck => exact hfixed .unsubAck ht
  | pingReq => exact hfixed .pingReq ht
  | pingResp => exact hfixed .pingResp ht
  | disconnect => exact hfixed .disconnect ht

end Frame

namespace Rp2040Server

/-- The task is at a read of the socket. -/
def Phase.AtRead (phase : Phase T P) : Prop :=
  phase = .selecting ∨ phase = .reading ∨ ∃ totalLen, phase = .filling totalLen

namespace Slot

/-- The steps that a task can make next, unless it panics. -/
inductive Ready (cfg : Config) (slot : Slot T P) : Action → Prop
  | register {currentTime : ℕ} (phase : slot.phase = .accepted) : Ready cfg slot (.register currentTime)
  | list {now : ℕ} (phase : slot.phase = .registered) : Ready cfg slot (.list now)
  | read {n now : ℕ} (phase : slot.phase.AtRead) (can : slot.CanRead cfg n) :
      Ready cfg slot (.read n now)
  | readFails (phase : slot.phase.AtRead) : Ready cfg slot .readFails
  | timeout {now : ℕ} (phase : slot.phase = .selecting)
      (elapsed : cfg.keepAliveTimeout ≤ now-slot.lastActivity) : Ready cfg slot (.timeout now)
  | serve {packet : Packet T P} {currentTime : ℕ} (phase : slot.phase = .received packet) :
      Ready cfg slot (.serve currentTime)
  | notify {sessions : List ℕ} {packets : List (Packet T P)}
      (phase : slot.phase = .notifying sessions packets) : Ready cfg slot .notify
  | fetch (phase : slot.phase = .woken) : Ready cfg slot .fetch
  | send {packets : List (Packet T P)} (phase : slot.phase = .sending packets) : Ready cfg slot .send
  | sent {packets : List (Packet T P)} (phase : slot.phase = .writing [] packets) :
      Ready cfg slot .send
  | write {n : ℕ} {rest : Bytes} {packets : List (Packet T P)}
      (phase : slot.phase = .writing rest packets) (pos : 0 < n) (le : n ≤ rest.length) :
      Ready cfg slot (.write n)
  | writeFails {byte : UInt8} {rest : Bytes} {packets : List (Packet T P)}
      (phase : slot.phase = .writing (byte::rest) packets) : Ready cfg slot .writeFails
  | unlist (phase : slot.phase = .closing) : Ready cfg slot .unlist
  | leave (phase : slot.phase = .unlisted) : Ready cfg slot .leave

/-- The buffer starts with such a frame. -/
def Chokes (w : ℕ) (slot : Slot T P) : Prop :=
  ∃ bytes r k, IsFrame w bytes r k ∧ bytes <+: slot.buffer ∧ Underflows bytes r

variable {cfg : Config} {slot : Slot T P} {w now n r k : ℕ}

lemma cut_eq_none {totalLen : ℕ} : slot.cut w now totalLen = none ↔ totalLen ≤ slot.buffer.length ∧
    ¬ (Packet.decode w (slot.buffer.take totalLen) :
      Outcome Unit ProtocolError (Packet T P)).Returns := by
  unfold cut
  split_ifs with hlen
  · exact iff_of_false (by simp) (fun h => Nat.not_lt.mpr h.1 hlen)
  · rw [and_iff_right (Nat.le_of_not_lt hlen)]
    split
    next decoded => simp [decoded]
    next decoded => simp [decoded]
    next decoded => simp [decoded]

/-- The only frame that the buffer can start with is the one whose length it shows. -/
lemma cut_eq_none_iff_chokes (hw : 32 ≤ w)
    (hparse : parseRemainingLength w slot.buffer = .ok (r,k) ()) :
    slot.cut w now (1+k+r) = none ↔ slot.Chokes w := by
  rw [cut_eq_none]
  constructor
  · rintro ⟨hlen,hpanics⟩
    have hframe := isFrame_take hw hparse hlen
    rw [Packet.frame_decode_returns hw hframe,not_not] at hpanics
    exact ⟨_,r,k,hframe,List.take_prefix _ _,hpanics⟩
  · rintro ⟨bytes,r',k',hframe,⟨rest,hrest⟩,hunder⟩
    have hne : slot.buffer ≠ [] := by
      rw [← hrest]
      exact List.append_ne_nil_of_left_ne_nil (List.ne_nil_of_length_pos hframe.length_pos) rest
    have hfield := hframe.lengthField_tail hw rest
    rw [hrest,(parseRemainingLengthFrom_eq_ok hw hne).mp hparse,LengthField.complete.injEq] at hfield
    obtain ⟨rfl,rfl⟩ := hfield
    rw [← hframe.2,← hrest,List.take_left,List.length_append,Packet.frame_decode_returns hw hframe,
      not_not]
    exact ⟨Nat.le_add_right _ _,hunder⟩

lemma start_eq_none (hw : 32 ≤ w) : slot.start w now = none ↔ slot.Chokes w := by
  have hfield : ∀ {bytes : Bytes} {r k : ℕ}, IsFrame w bytes r k → bytes <+: slot.buffer →
      2 ≤ slot.buffer.length ∧ parseRemainingLength w slot.buffer = .ok (r,k) () := by
    rintro bytes r k hframe ⟨rest,hrest⟩
    have hk := (lengthField_complete ((readVariableLength_eq_ok hw).mp hframe.1)).2.1
    have hlen := hframe.2
    have htail := hframe.lengthField_tail hw rest
    rw [hrest] at htail
    have hbuffer : 2 ≤ slot.buffer.length := by
      rw [← hrest,List.length_append]
      omega
    exact ⟨hbuffer,(parseRemainingLengthFrom_eq_ok hw
      (List.ne_nil_of_length_pos (by omega))).mpr htail⟩
  unfold start
  split_ifs with hlen
  · refine iff_of_false (by simp) ?_
    rintro ⟨bytes,r,k,hframe,hpre,-⟩
    exact Nat.not_lt.mpr (hfield hframe hpre).1 hlen
  · split
    next parsed => exact cut_eq_none_iff_chokes hw parsed
    next failed =>
      refine iff_of_false (by simp) ?_
      rintro ⟨bytes,r,k,hframe,hpre,-⟩
      rw [(hfield hframe hpre).2] at failed
      cases failed
    next aborted => exact absurd aborted (parseRemainingLengthFrom_returns hw slot.buffer _)

/-- A read that returns panics exactly when it completes such a frame. -/
lemma read_eq_none (hw : 32 ≤ cfg.wordBits) (hwaits : slot.Waits cfg.wordBits)
    (phase : slot.phase.AtRead) (can : slot.CanRead cfg n) :
    slot.step cfg (.read n now) = none ↔ n ≠ 0 ∧ (slot.absorb n).Chokes cfg.wordBits := by
  obtain he | he | ⟨totalLen,he⟩ := phase
  · simp only [step,he,if_pos can]
    split_ifs with hn
    · simp [hn]
    · rw [start_eq_none hw,and_iff_right hn]
  · simp only [step,he,if_pos can]
    split_ifs with hn
    · simp [hn]
    · rw [start_eq_none hw,and_iff_right hn]
  · simp only [step,he,if_pos can]
    split_ifs with hn
    · simp [hn]
    · obtain ⟨r,k,parsed,rfl⟩ := hwaits totalLen he
      have hparse : parseRemainingLength cfg.wordBits (slot.absorb n).buffer = .ok (r,k) () :=
        parseRemainingLengthFrom_append hw parsed _
      rw [cut_eq_none_iff_chokes hw hparse,and_iff_right hn]

end Slot

namespace System

variable {cfg : Config} {system system' : System T P Q S M B} {i : Fin S} {action : Action}
  {event : Event S} {hist : List (System T P Q S M B × Event S)}

/-- The events that can come next, unless the firmware panics. -/
inductive Ready (cfg : Config) (system : System T P Q S M B) : Event S → Prop
  | accept {i : Fin S} {ticks : UInt64} {stream : Bytes} (phase : (system.slots i).phase = .listening) :
      Ready cfg system (.accept i ticks stream)
  | wake {i : Fin S} (phase : (system.slots i).phase = .selecting)
      (items : (system.registry.channels i).items ≠ []) : Ready cfg system (.task i .wake)
  | task {i : Fin S} {action : Action} (ready : (system.slots i).Ready cfg action) :
      Ready cfg system (.task i action)
  | cleanup {currentTime : ℕ} : Ready cfg system (.cleanup currentTime)

/-- A read completes a frame whose checks underflow, or a scan finds more than four sessions expired or
more than four others disconnected. -/
def Panics (cfg : Config) (system : System T P Q S M B) : Event S → Prop
  | .task i (.read n _) => n ≠ 0 ∧ ((system.slots i).absorb n).Chokes cfg.wordBits
  | .cleanup currentTime =>
    ¬ ((system.broker.sessions.all.filter (fun session =>
        (session.expirationInfo currentTime).isExpired)).length ≤ 4 ∧
      (system.broker.sessions.all.filter (fun session => decide
        ((session.expirationInfo currentTime).isExpired = false ∧
          session.state = .disconnected))).length ≤ 4)
  | _ => False

/-- The steps of a task that is not at a read. -/
lemma act_ne_none (hf : cfg.Suits T P Q) (hS : S ≤ 65535) (hM : M ≤ 65535) (hB : B ≤ 65535)
    (hc : system.broker.Consistent system.broker.sessions.toMap)
    (hcarries : (system.slots i).Carries cfg) (hready : (system.slots i).Ready cfg action)
    (hread : ∀ n now, action ≠ .read n now) : system.act cfg i action ≠ none := by
  cases hready with
  | read => exact absurd rfl (hread _ _)
  | @register currentTime phase =>
    have hr := hc.registerNewSession_returns hS (system.slots i).sessionId cfg.defaultKeepAlive
      currentTime
    simp only [act,phase]
    split
    · simp
    · simp
    next aborted => exact absurd aborted (hr _)
  | @serve packet currentTime phase =>
    have hs := hc.serve (ε := Empty) push (system.slots i).sessionId packet currentTime
    simp only [act,phase]
    generalize PicoBroker.serve push (system.slots i).sessionId packet currentTime system.broker = o
      at hs ⊢
    cases hs with
    | absent => simp
    | failed => simp
    | done => simp
    | panicked capacity =>
      have hQ := hf.batch
      omega
  | fetch phase =>
    obtain ⟨b,hd,-⟩ := hc.dequeueAll (ε := Empty) push (system.slots i).sessionId
    simp [act,phase,hd]
  | @notify sessions packets phase =>
    cases sessions with
    | nil => simp [act,phase,Slot.step]
    | cons session sessions => simp [act,phase]
  | @send packets phase =>
    cases packets with
    | nil => simp [act,phase,Slot.step]
    | cons packet packets =>
      obtain ⟨hwf,hfits⟩ := hcarries.fits hf phase
      simp [act,phase,Slot.step,Packet.encode_eq hf.topic hf.payload hwf hfits]
  | @write n rest packets phase pos le =>
    cases rest with
    | nil => exact absurd le (Nat.not_le.mpr pos)
    | cons byte rest =>
      rw [List.length_cons] at le
      simp [act,phase,Slot.step,pos,le]
  | readFails phase =>
    obtain he | he | ⟨totalLen,he⟩ := phase
    · simp [act,he,Slot.step]
    · simp [act,he,Slot.step]
    · simp [act,he,Slot.step]
  | timeout phase elapsed => simp [act,phase,Slot.step,elapsed]
  | list phase | sent phase | writeFails phase | unlist phase | leave phase =>
    simp [act,phase,Slot.step]

/-- In every reachable state the firmware panics at these events and at no others: not for full queues,
not for sessions that are gone, not for connections that are lost. -/
theorem panics_iff (hf : cfg.Suits T P Q) (hS : S ≤ 65535) (hM : M ≤ 65535) (hB : B ≤ 65535)
    (hr : Run (next cfg) new hist system) (hready : Ready cfg system event) :
    system.next cfg event = none ↔ Panics cfg system event := by
  have hd := delivered_of_run hf hr
  have hc := hd.clean.consistent
  cases hready with
  | accept phase => exact iff_of_false (by simp [next,phase]) id
  | @wake i phase items =>
    refine iff_of_false ?_ id
    change system.act cfg i .wake ≠ none
    cases hrecv : (system.registry.channels i).recv with
    | none => exact absurd (Channel.recv_eq_none.mp hrecv) items
    | some r => simp [act,phase,hrecv]
  | @cleanup currentTime =>
    rw [next,hc.cleanup_rp2040,Panics,Option.map_eq_none_iff]
    split_ifs with hfits
    · exact iff_of_false (by simp) (fun hp => hp hfits)
    · exact iff_of_true rfl hfits
  | @task i action ready =>
    by_cases hread : ∃ n now, action = .read n now
    · obtain ⟨n,now,rfl⟩ := hread
      cases ready with
      | read phase can =>
        have hact : system.next cfg (.task i (.read n now)) =
            ((system.slots i).step cfg (.read n now)).map (fun slot => system.put i slot) := by
          simp only [next,act]
        rw [hact,Option.map_eq_none_iff]
        exact Slot.read_eq_none hf.word (reader_of_run hf.word hr i).waits phase can
    · have hne : ∀ n now, action ≠ .read n now := fun n now he => hread ⟨n,now,he⟩
      refine iff_of_false (act_ne_none hf hS hM hB hc (hd.carries i) ready hne) ?_
      intro hp
      cases action with
      | read n now => exact hne n now rfl
      | _ => exact hp

/-- A client sends a PINGREQ that announces 128 bytes, and so many. -/
def roomyConfig : Config := ⟨60,256,32⟩
def swollenEvents : List (Event 1) := arrival onlyTask (0xC0::0x80::0x01::List.replicate 128 0)
def swollen : System 1 1 1 1 1 1 := (exec (next roomyConfig) new swollenEvents).get (by decide)

theorem panics_iff_swollen : swollen.next roomyConfig (.task onlyTask (.read 131 1)) = none ↔
    Panics roomyConfig swollen (.task onlyTask (.read 131 1)) := by
  refine panics_iff ⟨by decide,by decide,by decide,by decide,by decide⟩ (by decide) (by decide)
    (by decide) (run_trace (Option.some_get (by decide)).symm) ?_
  exact .task (.read (.inl (by decide)) (by decide +kernel))

/-- The firmware stops when the last of these bytes is read, and not before. -/
example : swollen.next roomyConfig (.task onlyTask (.read 131 1)) = none ∧
    (swollen.next roomyConfig (.task onlyTask (.read 130 1))).isSome := by decide +kernel

end System

end Rp2040Server

end Picobroker
