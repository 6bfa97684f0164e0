import Picobroker.Rust.Channel
import Picobroker.Server.Cleanup
import Picobroker.Server.Forwarding
import Picobroker.Server.Ids
import Picobroker.Server.Reading
import Picobroker.Server.Serving

/-! The Tokio server: one task for each connection, a task that cleans up, and what they share. A step
of a task reaches to the next point where another task can run. -/
namespace Picobroker
open Rust

variable {T P Q S M B F : ℕ}

namespace TokioServer

/-- `MqttServerConfig`, the word length of the machine, and the lock of the map of senders under which
a key falls. The capacity of the frame channels is the parameter `F`. -/
structure Config where
  defaultKeepAliveSecs : UInt16
  wordBits : ℕ
  shard : ℕ → ℕ

/-- Where `handle_connection` stands. -/
inductive Phase (T P : ℕ)
  /-- the id is generated, the notification sender not yet registered -/
  | starting
  /-- the sender is registered, the session not yet -/
  | announced
  /-- the session is registered, the connection not yet stored -/
  | joined
  /-- at `tokio::select!` -/
  | selecting
  /-- a packet was read and waits for the lock of the broker -/
  | received (packet : Packet T P)
  /-- sessions to notify, and then packets to send -/
  | notifying (sessions : List ℕ) (packets : List (Packet T P))
  /-- in `sender.send(()).await` to the task `target`, with the entry of the sender held -/
  | awaiting (session target : ℕ) (sessions : List ℕ) (packets : List (Packet T P))
  /-- a notification was received and the lock of the broker is awaited -/
  | woken
  | sending (packets : List (Packet T P))
  /-- in `write_all` or `flush`, with these bytes of the frame to write; nothing else is polled -/
  | writing (rest : Bytes)
  /-- the loop was left -/
  | closing
  /-- the connection is removed -/
  | forgotten
  /-- the notification sender is removed, the session not yet -/
  | unannounced
  | closed
  /-- returned early: the session could not be registered -/
  | rejected
  | panicked
  deriving DecidableEq

/-- The task is over, and its receivers are dropped. -/
def Phase.Ended : Phase T P → Prop
  | .closed | .rejected | .panicked => True
  | _ => False

instance (phase : Phase T P) : Decidable phase.Ended := by
  cases phase <;> unfold Phase.Ended <;> infer_instance

/-- The entry of the map of senders that the task holds across an `await`. -/
def Phase.held : Phase T P → Option ℕ
  | .awaiting session _ _ _ => some session
  | _ => none

/-- The local variables of `handle_connection`, what its peer will send and what it was sent. -/
structure Handler (T P F : ℕ) where
  sessionId : ℕ
  phase : Phase T P
  input : Source
  lastActivity : ℕ
  notify : Channel Unit 8
  frames : Channel Bytes F
  socket : Bytes

def Handler.new (sessionId : ℕ) (chunks : List Bytes) : Handler T P F :=
  ⟨sessionId,.starting,⟨[],chunks⟩,0,.new,.new,[]⟩

/-- The steps of a task. -/
inductive Action
  | announce
  | register (currentTime : ℕ)
  | insert (now : ℕ)
  | absorb
  | read (now : ℕ)
  | serve (currentTime : ℕ)
  | notify
  | resume
  | wake
  | fetch
  | send
  | recv
  | write (n : ℕ)
  | flush
  | writeFails
  | timeout (now : ℕ)
  | forget
  | unannounce
  | leave
  deriving DecidableEq

/-- `keep_alive_timeout` in nanoseconds. -/
def Config.keepAliveTimeout (cfg : Config) : ℕ :=
  cfg.defaultKeepAliveSecs.toNat*3/2*1000000000

/-- `read_packet` waits for more bytes than these. -/
def Unfinished (wordBits : ℕ) (buffer : Bytes) : Prop :=
  buffer.length < 2 ∨
    match parseRemainingLength wordBits buffer with
    | .ok (remainingLen,varLenBytes) _ => buffer.length < 1+varLenBytes+remainingLen
    | _ => False

instance (wordBits : ℕ) (buffer : Bytes) : Decidable (Unfinished wordBits buffer) := by
  unfold Unfinished
  split <;> infer_instance

/-- The steps that a task makes on its own. Every turn of `tokio::select!` starts `read_packet` anew;
what an attempt has read by the time another branch is taken stays in the buffer (`absorb`). -/
def Handler.step (cfg : Config) (action : Action) (h : Handler T P F) : Option (Handler T P F) :=
  match action,h.phase with
  | .absorb,.selecting =>
    match h.input.chunks with
    | chunk::chunks =>
      if chunk ≠ [] ∧ Unfinished cfg.wordBits h.input.buffer then
        some { h with input := ⟨h.input.buffer ++ chunk,chunks⟩ }
      else none
    | [] => none
  | .read now,.selecting =>
    match readPacket cfg.wordBits h.input with
    | .ok (some packet) input => some { h with phase := .received packet, input, lastActivity := now }
    | .ok none input => some { h with phase := .closing, input }
    | .err _ input => some { h with phase := .closing, input }
    | .abort _ => some { h with phase := .panicked }
  | .notify,.notifying [] packets => some { h with phase := .sending packets }
  | .wake,.selecting => h.notify.recv.map (fun r => { h with phase := .woken, notify := r.2 })
  | .send,.sending [] => some { h with phase := .selecting }
  | .send,.sending (packet::packets) =>
    match encodeFrame packet with
    | .ok frame _ =>
      (h.frames.trySend frame).map (fun frames => { h with phase := .sending packets, frames })
    | .err _ _ => some { h with phase := .sending packets }
    | .abort _ => some { h with phase := .panicked }
  | .recv,.selecting => h.frames.recv.map (fun r => { h with phase := .writing r.1, frames := r.2 })
  | .write n,.writing (byte::rest) =>
    if 0 < n ∧ n ≤ rest.length+1 then some { h with
      phase := .writing ((byte::rest).drop n)
      socket := h.socket ++ (byte::rest).take n }
    else none
  | .flush,.writing [] => some { h with phase := .selecting }
  | .writeFails,.writing _ => some { h with phase := .closing }
  | .timeout now,.selecting =>
    some { h with phase := if cfg.keepAliveTimeout ≤ now-h.lastActivity then .closing else .selecting }
  | _,_ => none

/-! ### What a step of its own can do -/

namespace Handler

variable {cfg : Config} {h h' : Handler T P F} {action : Action}

/-- The cases of `step`, each with what it needs. -/
inductive Steps (cfg : Config) (h : Handler T P F) : Action → Handler T P F → Prop
  | absorbed {chunk : Bytes} {chunks : List Bytes} (phase : h.phase = .selecting)
      (arrived : h.input.chunks = chunk::chunks) (nonempty : chunk ≠ [])
      (unfinished : Unfinished cfg.wordBits h.input.buffer) :
      Steps cfg h .absorb { h with input := ⟨h.input.buffer ++ chunk,chunks⟩ }
  | received {now : ℕ} {packet : Packet T P} {input : Source} (phase : h.phase = .selecting)
      (read : readPacket cfg.wordBits h.input = .ok (some packet) input) :
      Steps cfg h (.read now) { h with phase := .received packet, input, lastActivity := now }
  | ended {now : ℕ} {input : Source} (phase : h.phase = .selecting)
      (read : readPacket cfg.wordBits h.input = .ok (none : Option (Packet T P)) input ∨
        ∃ error, (readPacket cfg.wordBits : Proc Source ProtocolError (Option (Packet T P))) h.input =
          .err error input) :
      Steps cfg h (.read now) { h with phase := .closing, input }
  | readPanicked {now : ℕ} {why : Abort} (phase : h.phase = .selecting)
      (read : (readPacket cfg.wordBits : Proc Source ProtocolError (Option (Packet T P))) h.input =
        .abort why) : Steps cfg h (.read now) { h with phase := .panicked }
  | informed {packets : List (Packet T P)} (phase : h.phase = .notifying [] packets) :
      Steps cfg h .notify { h with phase := .sending packets }
  | woken {notify : Channel Unit 8} (phase : h.phase = .selecting)
      (items : h.notify.items = ()::notify.items) :
      Steps cfg h .wake { h with phase := .woken, notify }
  | finished (phase : h.phase = .sending []) : Steps cfg h .send { h with phase := .selecting }
  | queued {packet : Packet T P} {packets : List (Packet T P)} {frame : Bytes} {u : Unit}
      {frames : Channel Bytes F} (phase : h.phase = .sending (packet::packets))
      (encode : encodeFrame packet = .ok frame u) (items : frames.items = h.frames.items ++ [frame]) :
      Steps cfg h .send { h with phase := .sending packets, frames }
  | refused {packet : Packet T P} {packets : List (Packet T P)} {error : IoError} {u : Unit}
      (phase : h.phase = .sending (packet::packets)) (encode : encodeFrame packet = .err error u) :
      Steps cfg h .send { h with phase := .sending packets }
  | sendPanicked {packet : Packet T P} {packets : List (Packet T P)} {why : Abort}
      (phase : h.phase = .sending (packet::packets)) (encode : encodeFrame packet = .abort why) :
      Steps cfg h .send { h with phase := .panicked }
  | picked {frame : Bytes} {frames : Channel Bytes F} (phase : h.phase = .selecting)
      (items : h.frames.items = frame::frames.items) :
      Steps cfg h .recv { h with phase := .writing frame, frames }
  | wrote {n : ℕ} {rest : Bytes} (phase : h.phase = .writing rest) (pos : 0 < n)
      (le : n ≤ rest.length) :
      Steps cfg h (.write n) { h with
        phase := .writing (rest.drop n)
        socket := h.socket ++ rest.take n }
  | flushed (phase : h.phase = .writing []) : Steps cfg h .flush { h with phase := .selecting }
  | broken {rest : Bytes} (phase : h.phase = .writing rest) :
      Steps cfg h .writeFails { h with phase := .closing }
  | expired {now : ℕ} (phase : h.phase = .selecting)
      (silent : cfg.keepAliveTimeout ≤ now-h.lastActivity) :
      Steps cfg h (.timeout now) { h with phase := .closing }
  | stayed {now : ℕ} (phase : h.phase = .selecting) : Steps cfg h (.timeout now) h

lemma steps_of_step (hs : h.step cfg action = some h') : Steps cfg h action h' := by
  unfold step at hs
  split at hs
  next phase =>
    split at hs
    next arrived =>
      split_ifs at hs with hc
      cases hs
      exact .absorbed phase arrived hc.1 hc.2
    next => cases hs
  next phase =>
    split at hs
    next read => cases hs; exact .received phase read
    next read => cases hs; exact .ended phase (.inl read)
    next read => cases hs; exact .ended phase (.inr ⟨_,read⟩)
    next read => cases hs; exact .readPanicked phase read
  next phase => cases hs; exact .informed phase
  next phase =>
    obtain ⟨⟨u,notify⟩,signal,rfl⟩ := Option.map_eq_some_iff.mp hs
    exact .woken phase (Channel.recv_eq_some signal)
  next phase => cases hs; exact .finished phase
  next packet packets phase =>
    split at hs
    next encode =>
      obtain ⟨frames,sent,rfl⟩ := Option.map_eq_some_iff.mp hs
      exact .queued phase encode (Channel.trySend_eq_some sent)
    next encode => cases hs; exact .refused phase encode
    next encode => cases hs; exact .sendPanicked phase encode
  next phase =>
    obtain ⟨⟨frame,frames⟩,picked,rfl⟩ := Option.map_eq_some_iff.mp hs
    exact .picked phase (Channel.recv_eq_some picked)
  next phase =>
    split_ifs at hs with hn
    cases hs
    exact .wrote phase hn.1 hn.2
  next phase => cases hs; exact .flushed phase
  next phase => cases hs; exact .broken phase
  next phase =>
    cases hs
    split_ifs with silent
    · exact .expired phase silent
    · rw [← phase]
      exact .stayed phase
  next => cases hs

end Handler

/-- `ServerState`, with the task that a sender belongs to. -/
structure ServerState where
  connections : Finset ℕ
  sessionIdGen : IdGenerator
  notificationSenders : ℕ → Option ℕ

/-- The shared state, the broker under its lock, and the tasks of the connections. -/
structure System (T P Q S M B F : ℕ) extends ServerState where
  broker : PicoBroker T P Q S M B
  handlers : List (Handler T P F)

inductive Event
  | accept (secs : UInt64) (chunks : List Bytes)
  | task (i : ℕ) (action : Action)
  | cleanup (currentTime : ℕ)
  deriving DecidableEq

namespace System

def new : System T P Q S M B F := ⟨⟨∅,.new,fun _ => none⟩,.new,[]⟩

def update (i : ℕ) (f : Handler T P F → Handler T P F) (system : System T P Q S M B F) :
    System T P Q S M B F := { system with handlers := system.handlers.modify i f }

def setPhase (i : ℕ) (phase : Phase T P) (system : System T P Q S M B F) : System T P Q S M B F :=
  system.update i (fun h => { h with phase })

/-- No task holds an entry under the same lock of the map of senders, so that the map can be written. -/
def Unheld (cfg : Config) (system : System T P Q S M B F) (sessionId : ℕ) : Prop :=
  ∀ h ∈ system.handlers, ∀ session ∈ h.phase.held, cfg.shard session ≠ cfg.shard sessionId

instance (cfg : Config) (system : System T P Q S M B F) (sessionId : ℕ) :
    Decidable (system.Unheld cfg sessionId) := inferInstanceAs (Decidable (∀ _ ∈ _, _))

/-- `sender.send(())`, which fails without effect when the receiver is dropped, and waits (`none`)
while the channel is full. -/
def trySignal (target : ℕ) (system : System T P Q S M B F) : Option (System T P Q S M B F) :=
  match system.handlers[target]? with
  | none => some system
  | some h =>
    if h.phase.Ended then some system
    else (h.notify.trySend ()).map (fun notify => system.update target (fun h => { h with notify }))

/-- `packets.push(pkt)`. -/
def push (packets : List (Packet T P)) (packet : Packet T P) : List (Packet T P) :=
  packets ++ [packet]

/-- The steps of the task `i`. A call of the broker that panics gives no next state. In the server it ends
this task only, and it takes a capacity of more than 65535. -/
def act (cfg : Config) (i : ℕ) (h : Handler T P F) (action : Action)
    (system : System T P Q S M B F) : Option (System T P Q S M B F) :=
  match action,h.phase with
  | .announce,.starting =>
    if system.Unheld cfg h.sessionId then
      some (setPhase i .announced { system with
        notificationSenders := Function.update system.notificationSenders h.sessionId (some i) })
    else none
  | .register currentTime,.announced =>
    match system.broker.registerNewSession h.sessionId cfg.defaultKeepAliveSecs currentTime with
    | .ok _ broker => some (setPhase i .joined { system with broker })
    | .err _ broker => some (setPhase i .rejected { system with broker })
    | .abort _ => none
  | .insert now,.joined =>
    -- a frame channel without places panics when it is made
    some (update i (fun h =>
        { h with phase := if F = 0 then .panicked else .selecting, lastActivity := now })
      { system with connections := insert h.sessionId system.connections })
  | .serve currentTime,.received packet =>
    match (PicoBroker.serve push h.sessionId packet currentTime system.broker :
      Outcome _ Empty _) with
    | .ok (.ok (sessions,packets)) broker =>
      some (setPhase i (.notifying sessions packets) { system with broker })
    | .ok (.error _) broker => some (setPhase i (.notifying [] []) { system with broker })
    | _ => none
  | .notify,.notifying (session::sessions) packets =>
    match system.notificationSenders session with
    | none => some (setPhase i (.notifying sessions packets) system)
    | some target =>
      match system.trySignal target with
      | some system => some (setPhase i (.notifying sessions packets) system)
      | none => some (setPhase i (.awaiting session target sessions packets) system)
  | .resume,.awaiting _ target sessions packets =>
    (system.trySignal target).map (setPhase i (.notifying sessions packets))
  | .fetch,.woken =>
    match (PicoBroker.dequeueAll push h.sessionId system.broker : Outcome _ Empty _) with
    | .ok packets broker => some (setPhase i (.sending packets) { system with broker })
    | _ => none
  | .forget,.closing =>
    some (setPhase i .forgotten
      { system with connections := system.connections.erase h.sessionId })
  | .unannounce,.forgotten =>
    if system.Unheld cfg h.sessionId then
      some (setPhase i .unannounced { system with
        notificationSenders := Function.update system.notificationSenders h.sessionId none })
    else none
  | .leave,.unannounced =>
    some (setPhase i .closed { system with broker := (system.broker.removeSession h.sessionId).2 })
  | action,_ => (h.step cfg action).map (fun h' => system.update i (fun _ => h'))

/-- `accept` stands for the first step of the task of a new connection, which generates the id. -/
def next (cfg : Config) (system : System T P Q S M B F) : Event → Option (System T P Q S M B F)
  | .accept secs chunks =>
    let (sessionId,sessionIdGen) := generate secs system.sessionIdGen
    some { system with
      sessionIdGen
      handlers := system.handlers ++ [.new sessionId chunks] }
  | .task i action => system.handlers[i]?.bind (fun h => system.act cfg i h action)
  | .cleanup currentTime =>
    let (connections,broker) := cleanup currentTime system.connections system.broker
    some { system with connections, broker }

/-! ### What a step can do -/

variable {cfg : Config} {system system' : System T P Q S M B F} {i k target : ℕ}
  {h : Handler T P F} {action : Action}

@[simp] lemma setPhase_broker (phase : Phase T P) : (system.setPhase i phase).broker = system.broker :=
  rfl
@[simp] lemma setPhase_connections (phase : Phase T P) :
    (system.setPhase i phase).connections = system.connections := rfl
@[simp] lemma setPhase_senders (phase : Phase T P) :
    (system.setPhase i phase).notificationSenders = system.notificationSenders := rfl

lemma update_handler {f : Handler T P F → Handler T P F} {x : Handler T P F} :
    (system.update i f).handlers[k]? = some x ↔
      ∃ y, system.handlers[k]? = some y ∧ (if i = k then f y else y) = x := by
  rw [update,List.getElem?_modify]
  exact Option.map_eq_some_iff

/-- What a signal does: nothing when its receiver is gone, and otherwise it is queued. -/
inductive Signals (target : ℕ) (system : System T P Q S M B F) : System T P Q S M B F → Prop
  | gone (gone : ∀ t, system.handlers[target]? = some t → t.phase.Ended) :
      Signals target system system
  | queued {t : Handler T P F} {notify : Channel Unit 8}
      (receiver : system.handlers[target]? = some t) (alive : ¬ t.phase.Ended)
      (items : notify.items = t.notify.items ++ [()]) :
      Signals target system (system.update target (fun h => { h with notify }))

lemma signals_of_trySignal (hs : system.trySignal target = some system') :
    Signals target system system' := by
  unfold trySignal at hs
  cases ht : system.handlers[target]? with
  | none =>
    simp only [ht] at hs
    cases hs
    exact .gone (fun t he => by rw [ht] at he; cases he)
  | some t =>
    simp only [ht] at hs
    split_ifs at hs with he
    · cases hs
      refine .gone (fun t' he' => ?_)
      rw [ht] at he'
      cases he'
      exact he
    · obtain ⟨notify,hn,rfl⟩ := Option.map_eq_some_iff.mp hs
      exact .queued ht he (Channel.trySend_eq_some hn)

lemma trySignal_eq_none : system.trySignal target = none ↔
    ∃ t, system.handlers[target]? = some t ∧ ¬ t.phase.Ended ∧ t.notify.Full := by
  unfold trySignal
  cases ht : system.handlers[target]? with
  | none => simp
  | some t =>
    simp only [Option.some.injEq,exists_eq_left']
    split_ifs with he
    · simp [he]
    · rw [Option.map_eq_none_iff,Channel.trySend_eq_none]
      simp [he]

/-- The steps of the task `i`. -/
inductive Acts (cfg : Config) (i : ℕ) (h : Handler T P F) (system : System T P Q S M B F) :
    Action → System T P Q S M B F → Prop
  | alone {action : Action} {h' : Handler T P F} (step : h.Steps cfg action h') :
      Acts cfg i h system action (system.update i (fun _ => h'))
  | announced (phase : h.phase = .starting) (unheld : system.Unheld cfg h.sessionId) :
      Acts cfg i h system .announce (setPhase i .announced { system with
        notificationSenders := Function.update system.notificationSenders h.sessionId (some i) })
  | joined {currentTime : ℕ} {broker : PicoBroker T P Q S M B} (phase : h.phase = .announced)
      (call : system.broker.registerNewSession h.sessionId cfg.defaultKeepAliveSecs currentTime =
        .ok () broker) :
      Acts cfg i h system (.register currentTime) (setPhase i .joined { system with broker })
  | rejected {currentTime : ℕ} {error : BrokerError} {broker : PicoBroker T P Q S M B}
      (phase : h.phase = .announced)
      (call : system.broker.registerNewSession h.sessionId cfg.defaultKeepAliveSecs currentTime =
        .err error broker) :
      Acts cfg i h system (.register currentTime) (setPhase i .rejected { system with broker })
  | inserted {now : ℕ} (phase : h.phase = .joined) :
      Acts cfg i h system (.insert now) (update i (fun h =>
          { h with phase := if F = 0 then .panicked else .selecting, lastActivity := now })
        { system with connections := insert h.sessionId system.connections })
  | served {currentTime : ℕ} {packet : Packet T P} {sessions : List ℕ} {packets : List (Packet T P)}
      {broker : PicoBroker T P Q S M B} (phase : h.phase = .received packet)
      (call : (PicoBroker.serve push h.sessionId packet currentTime system.broker :
        Outcome _ Empty _) = .ok (.ok (sessions,packets)) broker) :
      Acts cfg i h system (.serve currentTime)
        (setPhase i (.notifying sessions packets) { system with broker })
  | failed {currentTime : ℕ} {packet : Packet T P} {error : BrokerError}
      {broker : PicoBroker T P Q S M B} (phase : h.phase = .received packet)
      (call : (PicoBroker.serve push h.sessionId packet currentTime system.broker :
        Outcome _ Empty _) = .ok (.error error) broker) :
      Acts cfg i h system (.serve currentTime) (setPhase i (.notifying [] []) { system with broker })
  | skipped {session : ℕ} {sessions : List ℕ} {packets : List (Packet T P)}
      (phase : h.phase = .notifying (session::sessions) packets)
      (sender : system.notificationSenders session = none) :
      Acts cfg i h system .notify (setPhase i (.notifying sessions packets) system)
  | notified {session target : ℕ} {sessions : List ℕ} {packets : List (Packet T P)}
      {system' : System T P Q S M B F} (phase : h.phase = .notifying (session::sessions) packets)
      (sender : system.notificationSenders session = some target)
      (signals : Signals target system system') :
      Acts cfg i h system .notify (setPhase i (.notifying sessions packets) system')
  | blocked {session target : ℕ} {sessions : List ℕ} {packets : List (Packet T P)}
      (phase : h.phase = .notifying (session::sessions) packets)
      (sender : system.notificationSenders session = some target)
      (full : system.trySignal target = none) :
      Acts cfg i h system .notify (setPhase i (.awaiting session target sessions packets) system)
  | resumed {session target : ℕ} {sessions : List ℕ} {packets : List (Packet T P)}
      {system' : System T P Q S M B F} (phase : h.phase = .awaiting session target sessions packets)
      (signals : Signals target system system') :
      Acts cfg i h system .resume (setPhase i (.notifying sessions packets) system')
  | fetched {packets : List (Packet T P)} {broker : PicoBroker T P Q S M B} (phase : h.phase = .woken)
      (call : (PicoBroker.dequeueAll push h.sessionId system.broker : Outcome _ Empty _) =
        .ok packets broker) :
      Acts cfg i h system .fetch (setPhase i (.sending packets) { system with broker })
  | forgot (phase : h.phase = .closing) :
      Acts cfg i h system .forget (setPhase i .forgotten
        { system with connections := system.connections.erase h.sessionId })
  | unannounced (phase : h.phase = .forgotten) (unheld : system.Unheld cfg h.sessionId) :
      Acts cfg i h system .unannounce (setPhase i .unannounced { system with
        notificationSenders := Function.update system.notificationSenders h.sessionId none })
  | left (phase : h.phase = .unannounced) :
      Acts cfg i h system .leave (setPhase i .closed
        { system with broker := (system.broker.removeSession h.sessionId).2 })

lemma acts_of_act (ha : system.act cfg i h action = some system') :
    Acts cfg i h system action system' := by
  unfold act at ha
  split at ha
  next phase =>
    split_ifs at ha with hu
    cases ha
    exact .announced phase hu
  next phase =>
    split at ha
    next call => cases ha; exact .joined phase call
    next call => cases ha; exact .rejected phase call
    next => cases ha
  next phase => cases ha; exact .inserted phase
  next phase =>
    split at ha
    next call => cases ha; exact .served phase call
    next call => cases ha; exact .failed phase call
    next => cases ha
  next phase =>
    split at ha
    next sender => cases ha; exact .skipped phase sender
    next sender =>
      split at ha
      next sent => cases ha; exact .notified phase sender (signals_of_trySignal sent)
      next full => cases ha; exact .blocked phase sender full
  next phase =>
    obtain ⟨system',sent,rfl⟩ := Option.map_eq_some_iff.mp ha
    exact .resumed phase (signals_of_trySignal sent)
  next phase =>
    split at ha
    next call => cases ha; exact .fetched phase call
    next => cases ha
  next phase => cases ha; exact .forgot phase
  next phase =>
    split_ifs at ha with hu
    cases ha
    exact .unannounced phase hu
  next phase => cases ha; exact .left phase
  next =>
    obtain ⟨h',step,rfl⟩ := Option.map_eq_some_iff.mp ha
    exact .alone (Handler.steps_of_step step)

/-- The steps of the system. -/
inductive Steps (cfg : Config) (system : System T P Q S M B F) :
    Event → System T P Q S M B F → Prop
  | accepted (secs : UInt64) (chunks : List Bytes) :
      Steps cfg system (.accept secs chunks) { system with
        sessionIdGen := (generate secs system.sessionIdGen).2
        handlers := system.handlers ++ [.new (generate secs system.sessionIdGen).1 chunks] }
  | acted {i : ℕ} {action : Action} {h : Handler T P F} {system' : System T P Q S M B F}
      (handler : system.handlers[i]? = some h) (acts : Acts cfg i h system action system') :
      Steps cfg system (.task i action) system'
  | cleaned (currentTime : ℕ) :
      Steps cfg system (.cleanup currentTime) { system with
        connections := (cleanup currentTime system.connections system.broker).1
        broker := (cleanup currentTime system.connections system.broker).2 }

lemma steps_of_next {event : Event} (hn : system.next cfg event = some system') :
    Steps cfg system event system' := by
  cases event with
  | accept secs chunks =>
    cases hn
    exact .accepted secs chunks
  | task i action =>
    obtain ⟨h,hi,ha⟩ := Option.bind_eq_some_iff.mp hn
    exact .acted hi (acts_of_act ha)
  | cleanup currentTime =>
    cases hn
    exact .cleaned currentTime

end System

end TokioServer

end Picobroker
