import Picobroker.Protocol.Packets.Packet

/-! A session: its metadata and its two bounded queues of packets. -/
namespace Picobroker
open Rust

variable {T P Q : ℕ}

inductive SessionState
  | connecting
  | connected
  | disconnected
  deriving DecidableEq, Repr

/-- `Session<MAX_TOPIC_NAME_LENGTH, MAX_PAYLOAD_SIZE, QUEUE_SIZE>`. -/
structure Session (T P Q : ℕ) where
  sessionId : ℕ
  clientId : Option ClientId
  state : SessionState
  keepAliveSecs : UInt16
  lastActivity : ℕ
  rxQueue : HeaplessVec (Option (Packet T P)) Q
  txQueue : HeaplessVec (Option (Packet T P)) Q
  deriving DecidableEq, Repr

structure ExpirationInfo where
  sessionId : ℕ
  currentTime : ℕ
  lastActivity : ℕ
  keepAliveSecs : UInt16
  deriving DecidableEq, Repr

/-- The half period is rounded down to whole seconds. -/
def ExpirationInfo.isExpired (info : ExpirationInfo) : Bool :=
  if info.keepAliveSecs = 0 then false
  else
    let timeoutSecs := info.keepAliveSecs.toNat*3/2
    let timeoutNanos := timeoutSecs*1000000000
    let elapsed := info.currentTime-info.lastActivity
    elapsed > timeoutNanos

namespace Session

def new (sessionId : ℕ) (keepAliveSecs : UInt16) (currentTime : ℕ) : Session T P Q where
  sessionId
  clientId := none
  state := .connecting
  keepAliveSecs
  lastActivity := currentTime
  rxQueue := .new
  txQueue := .new

def expirationInfo (session : Session T P Q) (currentTime : ℕ) : ExpirationInfo where
  sessionId := session.sessionId
  currentTime
  lastActivity := session.lastActivity
  keepAliveSecs := session.keepAliveSecs

def updateActivity (currentTime : ℕ) (session : Session T P Q) : Session T P Q :=
  { session with lastActivity := currentTime }

def queueTxPacket (packet : Packet T P) : Proc (Session T P Q) BrokerError Unit :=
  Proc.zoom txQueue (fun txQueue session => { session with txQueue })
    ((HeaplessVec.push (some packet)).mapErr (fun _ => .bufferFull))

def dequeueTxPacket : Proc (Session T P Q) BrokerError (Option (Packet T P)) := ⟨fun session =>
  let r := session.txQueue.dequeueFront
  .ok r.1.join { session with txQueue := r.2 }⟩

def queueRxPacket (packet : Packet T P) : Proc (Session T P Q) BrokerError Unit :=
  Proc.zoom rxQueue (fun rxQueue session => { session with rxQueue })
    ((HeaplessVec.push (some packet)).mapErr (fun _ => .bufferFull))

def dequeueRxPacket : Proc (Session T P Q) BrokerError (Option (Packet T P)) := ⟨fun session =>
  let r := session.rxQueue.dequeueFront
  .ok r.1.join { session with rxQueue := r.2 }⟩

/-- The packets received from the client and not handled yet. -/
def rx (session : Session T P Q) : List (Packet T P) := session.rxQueue.asSlice.reduceOption

/-- The packets waiting to be sent to the client. -/
def tx (session : Session T P Q) : List (Packet T P) := session.txQueue.asSlice.reduceOption

/-- The queues hold packets only. -/
structure Filled (session : Session T P Q) : Prop where
  rx : session.rxQueue.asSlice = session.rx.map some
  tx : session.txQueue.asSlice = session.tx.map some

lemma filled_new (sessionId : ℕ) (keepAliveSecs : UInt16) (currentTime : ℕ) :
    (new sessionId keepAliveSecs currentTime : Session T P Q).Filled := ⟨rfl,rfl⟩

lemma rx_eq {session : Session T P Q} {items : List (Packet T P)}
    (h : session.rxQueue.asSlice = items.map some) : session.rx = items := by
  rw [rx,h]
  simp [List.reduceOption]

lemma tx_eq {session : Session T P Q} {items : List (Packet T P)}
    (h : session.txQueue.asSlice = items.map some) : session.tx = items := by
  rw [tx,h]
  simp [List.reduceOption]

lemma filled_of_eq {session : Session T P Q} {rx tx : List (Packet T P)}
    (hrx : session.rxQueue.asSlice = rx.map some) (htx : session.txQueue.asSlice = tx.map some) :
    session.Filled := ⟨by rw [rx_eq hrx,hrx],by rw [tx_eq htx,htx]⟩

end Session

end Picobroker
