import Picobroker.Session.Registry
import Picobroker.Topics.Subscribers

/-! The broker: the topic registry, the session registry and the handlers of the packets that the
clients sent. -/
namespace Picobroker
open Rust

variable {T P Q S M B : ℕ}

/-- `PicoBroker`, with the capacities in the order of the source: topic name, payload, queue, sessions,
topics, subscribers of a topic. -/
structure PicoBroker (T P Q S M B : ℕ) where
  topics : TopicRegistry T M B
  sessions : SessionRegistry T P Q S
  deriving DecidableEq, Repr

namespace PicoBroker

def new : PicoBroker T P Q S M B := ⟨.new,.new⟩

/-- A call on `self.topics`. -/
def onTopics {α : Type} (call : Proc (TopicRegistry T M B) BrokerError α) :
    Proc (PicoBroker T P Q S M B) BrokerError α :=
  Proc.zoom topics (fun topics broker => { broker with topics }) call

/-- A call on `self.sessions`. -/
def onSessions {α : Type} (call : Proc (SessionRegistry T P Q S) BrokerError α) :
    Proc (PicoBroker T P Q S M B) BrokerError α :=
  Proc.zoom sessions (fun sessions broker => { broker with sessions }) call

def registerNewSession (sessionId : ℕ) (keepAliveSecs : UInt16) (currentTime : ℕ) :
    Proc (PicoBroker T P Q S M B) BrokerError Unit :=
  onSessions (SessionRegistry.registerNewSession sessionId keepAliveSecs currentTime)

def markSessionDisconnected (sessionId : ℕ) : Proc (PicoBroker T P Q S M B) BrokerError Unit :=
  onSessions (SessionRegistry.markDisconnected sessionId)

def removeSession (sessionId : ℕ) (broker : PicoBroker T P Q S M B) :
    Bool × PicoBroker T P Q S M B :=
  let r := broker.sessions.removeSession sessionId
  (r.1,⟨(broker.topics.unregisterAll sessionId).2,r.2⟩)

def getAllSessions (broker : PicoBroker T P Q S M B) : List (Option ℕ) :=
  broker.sessions.getAllSessions

def getExpiredSessions (broker : PicoBroker T P Q S M B) (currentTime : ℕ) :
    List (Option ExpirationInfo) :=
  broker.sessions.getExpiredSessions currentTime

def getDisconnectedSessions (broker : PicoBroker T P Q S M B) : List (Option ℕ) :=
  broker.sessions.getDisconnectedSessions

def queuePacketReceivedFromClient (sessionId : ℕ) (packet : Packet T P) (currentTime : ℕ) :
    Proc (PicoBroker T P Q S M B) BrokerError Unit := do
  onSessions (SessionRegistry.updateSessionActivity sessionId currentTime)
  onSessions (SessionRegistry.queueRxPacket sessionId packet)

def dequeuePacketToSendToClient (sessionId : ℕ) :
    Proc (PicoBroker T P Q S M B) BrokerError (Option (Packet T P)) :=
  onSessions (SessionRegistry.dequeueTxPacket sessionId)

def handleConnect (sessionId : ℕ) (connect : ConnectPacket T P) :
    Proc (PicoBroker T P Q S M B) BrokerError Unit := do
  (if connect.clientId.isEmpty then pure ()
    else onSessions (SessionRegistry.updateClientId sessionId connect.clientId))
  onSessions (SessionRegistry.updateKeepAlive sessionId connect.keepAlive)
  onSessions (SessionRegistry.markConnected sessionId)
  onSessions (SessionRegistry.queueTxPacket sessionId (.connAck .default))

/-- `publish.qos > QoS::AtMostOnce && publish.packet_id.is_some()`, and then the PUBACK. -/
def pubAckOf (publish : PublishPacket T P) : Option (Packet T P) :=
  if publish.qos.acknowledged then publish.packetId.map (fun packetId => .pubAck ⟨packetId⟩)
  else none

def handlePublish (sessionId : ℕ) (publish : PublishPacket T P) :
    Proc (PicoBroker T P Q S M B) BrokerError Unit := do
  let subscribers ← Proc.lift ((← Proc.get).topics.getSubscribers publish.topicName)
  Proc.forEach (fun subscriberId =>
    onSessions (SessionRegistry.queueTxPacket subscriberId (.publish publish))) subscribers.asSlice
  match pubAckOf publish with
  | some pubAck => onSessions (SessionRegistry.queueTxPacket sessionId pubAck)
  | none => pure ()

def handleSubscribe (sessionId : ℕ) (subscribe : SubscribePacket T) :
    Proc (PicoBroker T P Q S M B) BrokerError Unit := do
  onTopics (TopicRegistry.subscribe sessionId subscribe.topicFilter)
  onSessions (SessionRegistry.queueTxPacket sessionId
    (.subAck ⟨subscribe.packetId,subscribe.requestedQos⟩))

def handlePingReq (sessionId : ℕ) : Proc (PicoBroker T P Q S M B) BrokerError Unit :=
  onSessions (SessionRegistry.queueTxPacket sessionId (.pingResp {}))

def handleDisconnect (sessionId : ℕ) : Proc (PicoBroker T P Q S M B) BrokerError Unit :=
  markSessionDisconnected sessionId

/-- The dispatch in `process_all_session_packets`. -/
def handlePacket (sessionId : ℕ) : Packet T P → Proc (PicoBroker T P Q S M B) BrokerError Unit
  | .connect connect => handleConnect sessionId connect
  | .connAck _ => pure ()
  | .publish publish => handlePublish sessionId publish
  | .pubAck _ => pure ()
  | .pubRec _ => pure ()
  | .pubRel _ => pure ()
  | .pubComp _ => pure ()
  | .subscribe subscribe => handleSubscribe sessionId subscribe
  | .subAck _ => pure ()
  | .unsubscribe _ => pure ()
  | .unsubAck _ => pure ()
  | .pingReq _ => handlePingReq sessionId
  | .pingResp _ => pure ()
  | .disconnect _ => handleDisconnect sessionId

/-- `while let Some(packet) = self.sessions.dequeue_rx_packet(session_id)? { .. }`, for at most `fuel`
tests of the condition. -/
def drainSession : ℕ → ℕ → Proc (PicoBroker T P Q S M B) BrokerError Unit
  | 0,_ => ⟨fun _ => .abort .outOfFuel⟩
  | fuel+1,sessionId => do
    match ← onSessions (SessionRegistry.dequeueRxPacket sessionId) with
    | some packet =>
      handlePacket sessionId packet
      drainSession fuel sessionId
    | none => pure ()

/-- A queue holds at most `Q` packets and no handler adds to it, so that every drain ends within
`Q + 1` tests. -/
def processAllSessionPackets : Proc (PicoBroker T P Q S M B) BrokerError Unit := do
  let sessionIds := (← Proc.get).getAllSessions
  Proc.forEach (drainSession (Q+1)) sessionIds.reduceOption

def getSessionsWithPendingPackets (broker : PicoBroker T P Q S M B) :
    Outcome (HeaplessVec ℕ S) BrokerError Unit :=
  Proc.forEach (fun sessionId =>
    if broker.sessions.hasPendingTxPackets sessionId then Proc.discard (HeaplessVec.push sessionId)
    else pure ()) broker.getAllSessions.reduceOption .new

/-- The public operations that change a broker. -/
inductive Call (T P : ℕ)
  | registerNewSession (sessionId : ℕ) (keepAliveSecs : UInt16) (currentTime : ℕ)
  | markSessionDisconnected (sessionId : ℕ)
  | removeSession (sessionId : ℕ)
  | queuePacketReceivedFromClient (sessionId : ℕ) (packet : Packet T P) (currentTime : ℕ)
  | dequeuePacketToSendToClient (sessionId : ℕ)
  | processAllSessionPackets
  deriving DecidableEq

/-- The broker after a call that returned, with `Ok` or with `Err`. -/
def next (broker : PicoBroker T P Q S M B) : Call T P → Option (PicoBroker T P Q S M B)
  | .registerNewSession sessionId keepAliveSecs currentTime =>
    (broker.registerNewSession sessionId keepAliveSecs currentTime).state?
  | .markSessionDisconnected sessionId => (broker.markSessionDisconnected sessionId).state?
  | .removeSession sessionId => some (broker.removeSession sessionId).2
  | .queuePacketReceivedFromClient sessionId packet currentTime =>
    (broker.queuePacketReceivedFromClient sessionId packet currentTime).state?
  | .dequeuePacketToSendToClient sessionId =>
    (broker.dequeuePacketToSendToClient sessionId).state?
  | .processAllSessionPackets => broker.processAllSessionPackets.state?

end PicoBroker

end Picobroker
