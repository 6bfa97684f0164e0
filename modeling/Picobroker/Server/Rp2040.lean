import Picobroker.Rust.Channel
import Picobroker.Server.Cleanup
import Picobroker.Server.Framing
import Picobroker.Server.Ids
import Picobroker.Server.Serving

/-! The RP2040 server: a pool with one task for each session that the broker can hold, a task that
cleans up, and what they share. A step of a task reaches to the next point where it can wait. -/
namespace Picobroker
open Rust

variable {T P Q S M B : ℕ}

namespace Rp2040Server

/-- The constants of `accept_task`, and the word length of the machine. -/
structure Config where
  defaultKeepAlive : UInt16
  rxBufferSize : ℕ
  wordBits : ℕ

/-- Where `accept_task` stands. -/
inductive Phase (T P : ℕ)
  /-- in `socket.accept` -/
  | listening
  /-- the id is generated, the session not yet registered with the broker -/
  | accepted
  /-- the session is registered with the broker, not yet with the notification registry -/
  | registered
  /-- at `select3` -/
  | selecting
  /-- in `read_packet`, with fewer than two bytes -/
  | reading
  /-- in `read_packet`, with fewer than the announced bytes -/
  | filling (totalLen : ℕ)
  /-- a packet was read and waits for the lock of the broker -/
  | received (packet : Packet T P)
  /-- sessions to notify, and then packets to send -/
  | notifying (sessions : List ℕ) (packets : List (Packet T P))
  /-- a notification was received and the lock of the broker is awaited -/
  | woken
  | sending (packets : List (Packet T P))
  /-- in `write_packet`, with these bytes of the packet to write and packets behind it -/
  | writing (rest : Bytes) (packets : List (Packet T P))
  /-- `handle_connection` returned -/
  | closing
  /-- the session is out of the notification registry, not yet out of the broker -/
  | unlisted
  deriving DecidableEq

/-- The local variables of `accept_task` and `handle_connection`: the filled part of `rx_buffer`, what
the peer has still to send before it closes the connection, and what it was sent. -/
structure Slot (T P : ℕ) where
  phase : Phase T P
  sessionId : ℕ
  buffer : Bytes
  txBuffer : Bytes
  lastActivity : ℕ
  stream : Bytes
  socket : Bytes

/-- The steps of a task. -/
inductive Action
  | register (currentTime : ℕ)
  | list (now : ℕ)
  | read (n now : ℕ)
  | readFails
  | serve (currentTime : ℕ)
  | notify
  | wake
  | fetch
  | send
  | write (n : ℕ)
  | writeFails
  | timeout (now : ℕ)
  | unlist
  | leave
  deriving DecidableEq

/-- `keep_alive_timeout` in ticks. -/
def Config.keepAliveTimeout (cfg : Config) : ℕ := cfg.defaultKeepAlive.toNat*3/2*1000000

namespace Slot

/-- `socket.read(&mut rx_buffer[buffer_len..])` may return this many bytes. It returns 0 at the end of
the stream and when the buffer has no room. -/
def CanRead (cfg : Config) (n : ℕ) (slot : Slot T P) : Prop :=
  n ≤ slot.stream.length ∧ slot.buffer.length+n ≤ cfg.rxBufferSize ∧
    (n = 0 → slot.stream = [] ∨ slot.buffer.length = cfg.rxBufferSize)

instance (cfg : Config) (n : ℕ) (slot : Slot T P) : Decidable (slot.CanRead cfg n) :=
  inferInstanceAs (Decidable (_ ∧ _ ∧ _))

def absorb (n : ℕ) (slot : Slot T P) : Slot T P :=
  { slot with buffer := slot.buffer ++ slot.stream.take n, stream := slot.stream.drop n }

/-- `read_packet` behind the length field, up to the next read. -/
def cut (w now totalLen : ℕ) (slot : Slot T P) : Option (Slot T P) :=
  if slot.buffer.length < totalLen then some { slot with phase := .filling totalLen }
  else match Packet.decode w (slot.buffer.take totalLen) with
    | .ok packet _ => some { slot with
      phase := .received packet
      buffer := slot.buffer.drop totalLen
      lastActivity := now }
    | .err _ _ => some { slot with phase := .closing }
    | .abort _ => none

/-- `read_packet` from its start, up to the next read. -/
def start (w now : ℕ) (slot : Slot T P) : Option (Slot T P) :=
  if slot.buffer.length < 2 then some { slot with phase := .reading }
  else match parseRemainingLength w slot.buffer with
    | .ok (remainingLen,varLenBytes) _ => slot.cut w now (1+varLenBytes+remainingLen)
    | .err _ _ => some { slot with phase := .closing }
    | .abort _ => none

/-- The steps that a task makes on its own. A panic stops the firmware, and gives no next state. An
error of `write_packet` ends the loop over the packets and not the connection. -/
def step (cfg : Config) (action : Action) (slot : Slot T P) : Option (Slot T P) :=
  match action,slot.phase with
  | .read n now,.selecting =>
    if slot.CanRead cfg n then
      if n = 0 then some { slot with phase := .closing } else (slot.absorb n).start cfg.wordBits now
    else none
  | .read n now,.reading =>
    -- at the end of the stream `read_packet` returns `Ok(None)`, and the loop goes on
    if slot.CanRead cfg n then
      if n = 0 then some { slot with phase := .selecting } else (slot.absorb n).start cfg.wordBits now
    else none
  | .read n now,.filling totalLen =>
    if slot.CanRead cfg n then
      if n = 0 then some { slot with phase := .closing }
      else (slot.absorb n).cut cfg.wordBits now totalLen
    else none
  | .readFails,.selecting => some { slot with phase := .closing }
  | .readFails,.reading => some { slot with phase := .closing }
  | .readFails,.filling _ => some { slot with phase := .closing }
  | .timeout now,.selecting =>
    if cfg.keepAliveTimeout ≤ now-slot.lastActivity then some { slot with phase := .closing } else none
  | .notify,.notifying [] packets => some { slot with phase := .sending packets }
  | .send,.sending [] => some { slot with phase := .selecting }
  | .send,.sending (packet::packets) =>
    match packet.encode slot.txBuffer with
    | .ok size txBuffer => some { slot with phase := .writing (txBuffer.take size) packets, txBuffer }
    | .err _ txBuffer => some { slot with phase := .selecting, txBuffer }
    | .abort _ => none
  | .send,.writing [] packets => some { slot with phase := .sending packets }
  | .write n,.writing (byte::rest) packets =>
    if 0 < n ∧ n ≤ rest.length+1 then some { slot with
      phase := .writing ((byte::rest).drop n) packets
      socket := slot.socket ++ (byte::rest).take n }
    else none
  | .writeFails,.writing (_::_) _ => some { slot with phase := .selecting }
  | _,_ => none

/-! ### What a step of its own can do -/

variable {cfg : Config} {w now totalLen : ℕ} {slot slot' : Slot T P} {action : Action}

/-- A call of `read_packet` waits for more, returns a packet or fails. -/
lemma cut_cases (hs : slot.cut w now totalLen = some slot') :
    (slot.buffer.length < totalLen ∧ slot' = { slot with phase := .filling totalLen }) ∨
    (totalLen ≤ slot.buffer.length ∧ ∃ packet,
      Packet.decode w (slot.buffer.take totalLen) = .ok packet () ∧ slot' = { slot with
        phase := .received packet
        buffer := slot.buffer.drop totalLen
        lastActivity := now }) ∨
    slot' = { slot with phase := .closing } := by
  unfold cut at hs
  split_ifs at hs with hlen
  · cases hs
    exact .inl ⟨hlen,rfl⟩
  · split at hs
    next packet u decoded =>
      cases hs
      exact .inr (.inl ⟨Nat.le_of_not_lt hlen,packet,decoded,rfl⟩)
    next =>
      cases hs
      exact .inr (.inr rfl)
    next => cases hs

lemma start_cases (hs : slot.start w now = some slot') :
    (slot.buffer.length < 2 ∧ slot' = { slot with phase := .reading }) ∨
    (2 ≤ slot.buffer.length ∧ ∃ remainingLen varLenBytes,
      parseRemainingLength w slot.buffer = .ok (remainingLen,varLenBytes) () ∧
      slot.cut w now (1+varLenBytes+remainingLen) = some slot') ∨
    slot' = { slot with phase := .closing } := by
  unfold start at hs
  split_ifs at hs with hlen
  · cases hs
    exact .inl ⟨hlen,rfl⟩
  · split at hs
    next remainingLen varLenBytes u parsed =>
      exact .inr (.inl ⟨Nat.le_of_not_lt hlen,remainingLen,varLenBytes,parsed,hs⟩)
    next =>
      cases hs
      exact .inr (.inr rfl)
    next => cases hs

/-- The steps that a task makes on its own. -/
inductive Steps (cfg : Config) (slot : Slot T P) : Action → Slot T P → Prop
  | started {n now : ℕ} {slot' : Slot T P} (phase : slot.phase = .selecting ∨ slot.phase = .reading)
      (can : slot.CanRead cfg n) (pos : n ≠ 0)
      (start : (slot.absorb n).start cfg.wordBits now = some slot') :
      Steps cfg slot (.read n now) slot'
  | filled {n now totalLen : ℕ} {slot' : Slot T P} (phase : slot.phase = .filling totalLen)
      (can : slot.CanRead cfg n) (pos : n ≠ 0)
      (cut : (slot.absorb n).cut cfg.wordBits now totalLen = some slot') :
      Steps cfg slot (.read n now) slot'
  | ended {now : ℕ} (phase : slot.phase = .selecting ∨ ∃ totalLen, slot.phase = .filling totalLen)
      (can : slot.CanRead cfg 0) : Steps cfg slot (.read 0 now) { slot with phase := .closing }
  | paused {now : ℕ} (phase : slot.phase = .reading) (can : slot.CanRead cfg 0) :
      Steps cfg slot (.read 0 now) { slot with phase := .selecting }
  | broken (phase : slot.phase = .selecting ∨ slot.phase = .reading ∨
        ∃ totalLen, slot.phase = .filling totalLen) :
      Steps cfg slot .readFails { slot with phase := .closing }
  | expired {now : ℕ} (phase : slot.phase = .selecting)
      (elapsed : cfg.keepAliveTimeout ≤ now-slot.lastActivity) :
      Steps cfg slot (.timeout now) { slot with phase := .closing }
  | informed {packets : List (Packet T P)} (phase : slot.phase = .notifying [] packets) :
      Steps cfg slot .notify { slot with phase := .sending packets }
  | finished (phase : slot.phase = .sending []) :
      Steps cfg slot .send { slot with phase := .selecting }
  | encoded {packet : Packet T P} {packets : List (Packet T P)} {size : ℕ} {txBuffer : Bytes}
      (phase : slot.phase = .sending (packet::packets))
      (encode : packet.encode slot.txBuffer = .ok size txBuffer) :
      Steps cfg slot .send
        { slot with phase := .writing (txBuffer.take size) packets, txBuffer := txBuffer }
  | refused {packet : Packet T P} {packets : List (Packet T P)} {error : ProtocolError}
      {txBuffer : Bytes} (phase : slot.phase = .sending (packet::packets))
      (encode : packet.encode slot.txBuffer = .err error txBuffer) :
      Steps cfg slot .send { slot with phase := .selecting, txBuffer := txBuffer }
  | sent {packets : List (Packet T P)} (phase : slot.phase = .writing [] packets) :
      Steps cfg slot .send { slot with phase := .sending packets }
  | wrote {n : ℕ} {rest : Bytes} {packets : List (Packet T P)}
      (phase : slot.phase = .writing rest packets) (pos : 0 < n) (le : n ≤ rest.length) :
      Steps cfg slot (.write n) { slot with
        phase := .writing (rest.drop n) packets
        socket := slot.socket ++ rest.take n }
  | dropped {byte : UInt8} {rest : Bytes} {packets : List (Packet T P)}
      (phase : slot.phase = .writing (byte::rest) packets) :
      Steps cfg slot .writeFails { slot with phase := .selecting }

lemma steps_of_step (hs : slot.step cfg action = some slot') : Steps cfg slot action slot' := by
  unfold step at hs
  split at hs
  next phase =>
    split_ifs at hs with can hn
    · cases hs
      subst hn
      exact .ended (.inl phase) can
    · exact .started (.inl phase) can hn hs
  next phase =>
    split_ifs at hs with can hn
    · cases hs
      subst hn
      exact .paused phase can
    · exact .started (.inr phase) can hn hs
  next totalLen phase =>
    split_ifs at hs with can hn
    · cases hs
      subst hn
      exact .ended (.inr ⟨totalLen,phase⟩) can
    · exact .filled phase can hn hs
  next phase =>
    cases hs
    exact .broken (.inl phase)
  next phase =>
    cases hs
    exact .broken (.inr (.inl phase))
  next totalLen phase =>
    cases hs
    exact .broken (.inr (.inr ⟨totalLen,phase⟩))
  next phase =>
    split_ifs at hs with elapsed
    cases hs
    exact .expired phase elapsed
  next phase =>
    cases hs
    exact .informed phase
  next phase =>
    cases hs
    exact .finished phase
  next phase =>
    split at hs
    next encode =>
      cases hs
      exact .encoded phase encode
    next encode =>
      cases hs
      exact .refused phase encode
    next => cases hs
  next phase =>
    cases hs
    exact .sent phase
  next n byte rest packets phase =>
    split_ifs at hs with hn
    cases hs
    exact .wrote phase hn.1 hn.2
  next phase =>
    cases hs
    exact .dropped phase
  next => cases hs

end Slot

/-- `NotificationRegistry`. An id of 0 stands for no session. -/
structure NotificationRegistry (S : ℕ) where
  channels : Fin S → Channel Unit 1
  sessionIds : Fin S → ℕ

namespace NotificationRegistry

def new : NotificationRegistry S := ⟨fun _ => .new,fun _ => 0⟩

def registerSession (channelIdx : Fin S) (sessionId : ℕ) (registry : NotificationRegistry S) :
    NotificationRegistry S :=
  { registry with sessionIds := Function.update registry.sessionIds channelIdx sessionId }

def unregisterSession (channelIdx : Fin S) (registry : NotificationRegistry S) :
    NotificationRegistry S := registry.registerSession channelIdx 0

/-- The first entry with the id. A channel that is full stays as it is. -/
def notifySession (sessionId : ℕ) (registry : NotificationRegistry S) : NotificationRegistry S :=
  match (List.finRange S).find? (fun idx => registry.sessionIds idx = sessionId) with
  | some idx =>
    match (registry.channels idx).trySend () with
    | some channel => { registry with channels := Function.update registry.channels idx channel }
    | none => registry
  | none => registry

end NotificationRegistry

/-- What the tasks share, the broker under its lock, and the tasks of the pool. -/
structure System (T P Q S M B : ℕ) where
  broker : PicoBroker T P Q S M B
  registry : NotificationRegistry S
  sessionIdGen : IdGenerator
  slots : Fin S → Slot T P

inductive Event (S : ℕ)
  | accept (i : Fin S) (ticks : UInt64) (stream : Bytes)
  | task (i : Fin S) (action : Action)
  | cleanup (currentTime : ℕ)
  deriving DecidableEq

namespace System

def new : System T P Q S M B := ⟨.new,.new,.new,fun _ => ⟨.listening,0,[],[],0,[],[]⟩⟩

def put (i : Fin S) (slot : Slot T P) (system : System T P Q S M B) : System T P Q S M B :=
  { system with slots := Function.update system.slots i slot }

def setPhase (i : Fin S) (phase : Phase T P) (system : System T P Q S M B) : System T P Q S M B :=
  system.put i { system.slots i with phase }

/-- `let _ = packets.push(pkt)` on a `heapless::Vec` with eight places. -/
def push (packets : List (Packet T P)) (packet : Packet T P) : List (Packet T P) :=
  if packets.length < 8 then packets ++ [packet] else packets

/-- The steps of the task `i`. A broker that panics gives no next state. -/
def act (cfg : Config) (i : Fin S) (action : Action) (system : System T P Q S M B) :
    Option (System T P Q S M B) :=
  let slot := system.slots i
  match action,slot.phase with
  | .register currentTime,.accepted =>
    match system.broker.registerNewSession slot.sessionId cfg.defaultKeepAlive currentTime with
    | .ok _ broker => some (setPhase i .registered { system with broker })
    | .err _ broker => some (setPhase i .listening { system with broker })
    | .abort _ => none
  | .list now,.registered => some (put i { slot with
        phase := .selecting
        txBuffer := List.replicate cfg.rxBufferSize 0
        lastActivity := now }
      { system with registry := system.registry.registerSession i slot.sessionId })
  | .serve currentTime,.received packet =>
    match (PicoBroker.serve push slot.sessionId packet currentTime system.broker :
      Outcome _ Empty _) with
    | .ok (.ok (sessions,packets)) broker =>
      some (setPhase i (.notifying sessions packets) { system with broker })
    | .ok (.error _) broker => some (setPhase i .closing { system with broker })
    | _ => none
  | .notify,.notifying (session::sessions) packets =>
    some (setPhase i (.notifying sessions packets)
      { system with registry := system.registry.notifySession session })
  | .wake,.selecting => (system.registry.channels i).recv.map (fun r => setPhase i .woken { system with
      registry := { system.registry with
        channels := Function.update system.registry.channels i r.2 } })
  | .fetch,.woken =>
    match (PicoBroker.dequeueAll push slot.sessionId system.broker : Outcome _ Empty _) with
    | .ok packets broker => some (setPhase i (.sending packets) { system with broker })
    | _ => none
  | .unlist,.closing =>
    some (setPhase i .unlisted { system with registry := system.registry.unregisterSession i })
  | .leave,.unlisted => some (setPhase i .listening
      { system with broker := (system.broker.removeSession slot.sessionId).2 })
  | action,_ => (slot.step cfg action).map (fun slot => system.put i slot)

/-- `accept` is the end of `socket.accept` with a new connection, and generates the id. A scan of the
clean-up task that panics gives no next state. -/
def next (cfg : Config) (system : System T P Q S M B) : Event S → Option (System T P Q S M B)
  | .accept i ticks stream =>
    if (system.slots i).phase = .listening then
      let (sessionId,sessionIdGen) := generate ticks system.sessionIdGen
      some (put i ⟨.accepted,sessionId,[],[],0,stream,[]⟩ { system with sessionIdGen })
    else none
  | .task i action => system.act cfg i action
  | .cleanup currentTime =>
    (cleanup currentTime system.broker).map (fun broker => { system with broker })

/-! ### What a step can do -/

variable {cfg : Config} {system system' : System T P Q S M B} {i j : Fin S} {slot : Slot T P}
  {action : Action}

@[simp] lemma put_slots_self (i : Fin S) (slot : Slot T P) (system : System T P Q S M B) :
    (system.put i slot).slots i = slot := by
  simp [put]
lemma put_slots_of_ne (hij : j ≠ i) (slot : Slot T P) (system : System T P Q S M B) :
    (system.put i slot).slots j = system.slots j := by
  simp [put,hij]
@[simp] lemma put_broker (i : Fin S) (slot : Slot T P) (system : System T P Q S M B) :
    (system.put i slot).broker = system.broker := rfl
@[simp] lemma put_registry (i : Fin S) (slot : Slot T P) (system : System T P Q S M B) :
    (system.put i slot).registry = system.registry := rfl
@[simp] lemma put_sessionIdGen (i : Fin S) (slot : Slot T P) (system : System T P Q S M B) :
    (system.put i slot).sessionIdGen = system.sessionIdGen := rfl

@[simp] lemma setPhase_slots_self (i : Fin S) (phase : Phase T P) (system : System T P Q S M B) :
    (system.setPhase i phase).slots i = { system.slots i with phase } := put_slots_self _ _ _
@[simp] lemma setPhase_broker (i : Fin S) (phase : Phase T P) (system : System T P Q S M B) :
    (system.setPhase i phase).broker = system.broker := rfl

/-- The steps of the task `i`. -/
inductive Acts (cfg : Config) (i : Fin S) (system : System T P Q S M B) :
    Action → System T P Q S M B → Prop
  | alone {action : Action} {slot : Slot T P} (steps : (system.slots i).Steps cfg action slot) :
      Acts cfg i system action (system.put i slot)
  | registered {currentTime : ℕ} {broker : PicoBroker T P Q S M B}
      (phase : (system.slots i).phase = .accepted)
      (call : system.broker.registerNewSession (system.slots i).sessionId cfg.defaultKeepAlive
        currentTime = .ok () broker) :
      Acts cfg i system (.register currentTime) (setPhase i .registered { system with broker })
  | refused {currentTime : ℕ} {error : BrokerError} {broker : PicoBroker T P Q S M B}
      (phase : (system.slots i).phase = .accepted)
      (call : system.broker.registerNewSession (system.slots i).sessionId cfg.defaultKeepAlive
        currentTime = .err error broker) :
      Acts cfg i system (.register currentTime) (setPhase i .listening { system with broker })
  | listed {now : ℕ} (phase : (system.slots i).phase = .registered) :
      Acts cfg i system (.list now) (put i { system.slots i with
          phase := .selecting
          txBuffer := List.replicate cfg.rxBufferSize 0
          lastActivity := now }
        { system with registry := system.registry.registerSession i (system.slots i).sessionId })
  | served {currentTime : ℕ} {packet : Packet T P} {sessions : List ℕ} {packets : List (Packet T P)}
      {broker : PicoBroker T P Q S M B} (phase : (system.slots i).phase = .received packet)
      (call : (PicoBroker.serve push (system.slots i).sessionId packet currentTime system.broker :
        Outcome _ Empty _) = .ok (.ok (sessions,packets)) broker) :
      Acts cfg i system (.serve currentTime)
        (setPhase i (.notifying sessions packets) { system with broker })
  | failed {currentTime : ℕ} {packet : Packet T P} {error : BrokerError}
      {broker : PicoBroker T P Q S M B} (phase : (system.slots i).phase = .received packet)
      (call : (PicoBroker.serve push (system.slots i).sessionId packet currentTime system.broker :
        Outcome _ Empty _) = .ok (.error error) broker) :
      Acts cfg i system (.serve currentTime) (setPhase i .closing { system with broker })
  | notified {session : ℕ} {sessions : List ℕ} {packets : List (Packet T P)}
      (phase : (system.slots i).phase = .notifying (session::sessions) packets) :
      Acts cfg i system .notify (setPhase i (.notifying sessions packets)
        { system with registry := system.registry.notifySession session })
  | woken {u : Unit} {channel : Channel Unit 1} (phase : (system.slots i).phase = .selecting)
      (recv : (system.registry.channels i).recv = some (u,channel)) :
      Acts cfg i system .wake (setPhase i .woken { system with registry := { system.registry with
        channels := Function.update system.registry.channels i channel } })
  | fetched {packets : List (Packet T P)} {broker : PicoBroker T P Q S M B}
      (phase : (system.slots i).phase = .woken)
      (call : (PicoBroker.dequeueAll push (system.slots i).sessionId system.broker :
        Outcome _ Empty _) = .ok packets broker) :
      Acts cfg i system .fetch (setPhase i (.sending packets) { system with broker })
  | unlisted (phase : (system.slots i).phase = .closing) :
      Acts cfg i system .unlist
        (setPhase i .unlisted { system with registry := system.registry.unregisterSession i })
  | left (phase : (system.slots i).phase = .unlisted) :
      Acts cfg i system .leave (setPhase i .listening
        { system with broker := (system.broker.removeSession (system.slots i).sessionId).2 })

lemma acts_of_act (ha : system.act cfg i action = some system') : Acts cfg i system action system' := by
  unfold act at ha
  dsimp only at ha
  split at ha
  next phase =>
    split at ha
    next call =>
      cases ha
      exact .registered phase call
    next call =>
      cases ha
      exact .refused phase call
    next => cases ha
  next phase =>
    cases ha
    exact .listed phase
  next phase =>
    split at ha
    next call =>
      cases ha
      exact .served phase call
    next call =>
      cases ha
      exact .failed phase call
    next => cases ha
  next phase =>
    cases ha
    exact .notified phase
  next phase =>
    obtain ⟨⟨u,channel⟩,recv,rfl⟩ := Option.map_eq_some_iff.mp ha
    exact .woken phase recv
  next phase =>
    split at ha
    next call =>
      cases ha
      exact .fetched phase call
    next => cases ha
  next phase =>
    cases ha
    exact .unlisted phase
  next phase =>
    cases ha
    exact .left phase
  next =>
    obtain ⟨slot,step,rfl⟩ := Option.map_eq_some_iff.mp ha
    exact .alone (Slot.steps_of_step step)

/-- The steps of the system. -/
inductive Steps (cfg : Config) (system : System T P Q S M B) : Event S → System T P Q S M B → Prop
  | accepted {i : Fin S} (ticks : UInt64) (stream : Bytes)
      (phase : (system.slots i).phase = .listening) :
      Steps cfg system (.accept i ticks stream) (put i
        ⟨.accepted,(generate ticks system.sessionIdGen).1,[],[],0,stream,[]⟩
        { system with sessionIdGen := (generate ticks system.sessionIdGen).2 })
  | acted {i : Fin S} {action : Action} {system' : System T P Q S M B}
      (acts : Acts cfg i system action system') : Steps cfg system (.task i action) system'
  | cleaned {currentTime : ℕ} {broker : PicoBroker T P Q S M B}
      (scan : cleanup currentTime system.broker = some broker) :
      Steps cfg system (.cleanup currentTime) { system with broker }

lemma steps_of_next {event : Event S} (hn : system.next cfg event = some system') :
    Steps cfg system event system' := by
  cases event with
  | accept i ticks stream =>
    rw [next] at hn
    split_ifs at hn with phase
    cases hn
    exact .accepted ticks stream phase
  | task i action => exact .acted (acts_of_act hn)
  | cleanup currentTime =>
    obtain ⟨broker,scan,rfl⟩ := Option.map_eq_some_iff.mp hn
    exact .cleaned scan

end System

end Rp2040Server

end Picobroker
