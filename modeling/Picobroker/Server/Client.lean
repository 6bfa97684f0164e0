import Picobroker.Rust.Utf8
import Picobroker.Server.Receiving

/-! The Tokio client: what it writes to its connection, when it succeeds, and what the server makes of
what it wrote. -/
namespace Picobroker
open Rust

variable {w : ℕ}

namespace TokioClient

/-- What the client puts into a `Box<dyn Error>`. -/
inductive ClientError
  | protocol (error : ProtocolError)
  | io (error : IoError)
  /-- a write fails -/
  | broken
  /-- `Connection closed by server` -/
  | closed
  /-- `Message too large for MAX_PAYLOAD_SIZE` -/
  | messageTooLarge
  /-- `Expected CONNACK, got ..` -/
  | unexpected (packetType : PacketType)
  /-- `Connection rejected: ..` -/
  | rejected (returnCode : ConnectReturnCode)
  deriving DecidableEq, Repr

/-- `MqttClient`: the buffer with what the socket will deliver, what was written to the socket, and how
many bytes it takes before a write fails. -/
structure MqttClient where
  input : Source
  sent : Bytes
  writable : ℕ
  deriving DecidableEq, Repr

/-- `socket.write_all(data)`. -/
def writeAll (data : Bytes) : Proc MqttClient ClientError Unit := ⟨fun client =>
  let written := { client with
    sent := client.sent ++ data.take client.writable
    writable := client.writable-data.length }
  if data.length ≤ client.writable then .ok () written else .err .broken written⟩

/-- `encode_packet`, with `MAX_TOPIC_NAME_LENGTH = 64` and `MAX_PAYLOAD_SIZE = 256`: the same text as
`encode_frame` of the server. -/
def encodePacket (packet : Packet 64 256) : Outcome Unit IoError Bytes :=
  TokioServer.encodeFrame packet

/-- `let encoded = encode_packet(&packet)?; socket.write_all(&encoded).await?;`. -/
def send (packet : Packet 64 256) : Proc MqttClient ClientError Unit := do
  let encoded ← Proc.mapErr .io (Proc.call (encodePacket packet))
  writeAll encoded

/-- `read_packet` of the client, which takes the end of the stream for an error. -/
def readPacket (w : ℕ) : Proc Source ClientError (Packet 64 256) := do
  let started ← Source.fill 2
  Proc.failIf (started = false) .closed
  let s ← Proc.get
  let (remainingLen,varLenBytes) ←
    Proc.mapErr .protocol (Proc.call (parseRemainingLengthFrom w s.buffer))
  let totalLen := 1+varLenBytes+remainingLen
  let filled ← Source.fill totalLen
  Proc.failIf (filled = false) .closed
  let s ← Proc.get
  let frame ← slice s.buffer 0 totalLen
  let packet ← Proc.mapErr .protocol (Proc.call (Packet.decode w frame))
  Proc.modify (Source.advance totalLen)
  pure packet

def readConnAck (w : ℕ) : Proc MqttClient ClientError ConnAckPacket := do
  match ← Proc.zoom MqttClient.input (fun input client => { client with input }) (readPacket w) with
  | .connAck connAck => pure connAck
  | packet => Proc.fail (.unexpected packet.packetType)

def connectPacket (clientId : ClientId) (keepAlive : UInt16) : Packet 64 256 :=
  .connect ⟨.cleanSession,keepAlive,clientId,none,none,none,none⟩

def publishPacket (topicName : TopicName 64) (payload : HeaplessVec UInt8 256) : Packet 64 256 :=
  .publish ⟨topicName,none,payload,.atMostOnce,false,false⟩

/-- `MqttClient::connect`, from the established connection on. -/
def connect (w : ℕ) (clientId : Str) (keepAlive : UInt16) : Proc MqttClient ClientError Unit := do
  let clientId ← Proc.okOr (.protocol (.clientIdLengthExceeded 23 clientId.1.length))
    (HeaplessString.tryFrom clientId.1)
  send (connectPacket clientId keepAlive)
  let connAck ← readConnAck w
  Proc.failIf (connAck.returnCode ≠ .accepted) (.rejected connAck.returnCode)

def publish (topic message : Str) : Proc MqttClient ClientError Unit := do
  let topicName ← Proc.okOr (.protocol (.topicNameLengthExceeded 64 topic.1.length))
    (HeaplessString.tryFrom topic.1)
  let payload ← Proc.okOr .messageTooLarge (HeaplessVec.collect message.1)
  send (publishPacket topicName payload)

def disconnect : Proc MqttClient ClientError Unit := send (.disconnect {})

/-- `main`, with any number of messages. -/
def session (w : ℕ) (clientId : Str) (keepAlive : UInt16) (messages : List (Str × Str)) :
    Proc MqttClient ClientError Unit := do
  connect w clientId keepAlive
  Proc.forEach (fun message => publish message.1 message.2) messages
  disconnect

/-- A string literal. -/
def text (s : String) : Str where
  val := s.toByteArray.data.toList
  property := by
    have hs : s.toByteArray.data.toList.toByteArray = s.toByteArray := by
      apply ByteArray.ext
      simp
    rw [validUtf8_iff_isValidUTF8,hs]
    exact s.isValidUTF8

/-- What `main` says. -/
def mainMessages : List (Str × Str) := [(text "test/topic",text "Hello from picobroker client!")]

def main (w : ℕ) : Proc MqttClient ClientError Unit := session w (text "tokio-client") 60 mainMessages

/-! ### What the client writes -/

section Encode

variable {packet : Packet 64 256}

lemma encodePacket_eq (h : packet.WellFormed) (hroom : packet.contents.wire.length ≤ 325) :
    encodePacket packet = .ok packet.contents.wire () := by
  have hend : ¬ packet.UncheckedEnd 325 := by
    intro hu
    have hlt := hu.lt (by decide) (by decide) h
    omega
  rw [encodePacket,TokioServer.encodeFrame_cases (by decide) (by decide) h hend,if_pos hroom]

lemma send_eq (h : packet.WellFormed) (hroom : packet.contents.wire.length ≤ 325)
    (client : MqttClient) : send packet client = writeAll packet.contents.wire client := by
  rw [send,Proc.bind_apply,Proc.mapErr_apply,Proc.call_apply,encodePacket_eq h hroom]
  rfl

/-- `MAX_PAYLOAD_SIZE` and `MAX_TOPIC_NAME_LENGTH` leave five bytes for the rest of a PUBLISH. -/
lemma publishPacket_wire_length (topicName : TopicName 64) (payload : HeaplessVec UInt8 256) :
    (publishPacket topicName payload).contents.wire.length ≤ 325 := by
  have ht := topicName.length_le
  have hv := payload.length_le
  refine (frame_length (PublishPacket.body_length_le (by decide) (by decide) _)).trans_le ?_
  simp only [PublishPacket.contents,PublishPacket.Contents.body,PublishPacket.optionPid,
    List.length_append,field_length,HeaplessString.bytes_length,HeaplessVec.asSlice_length,
    List.length_nil,variableLengthLength]
  split_ifs <;> omega

lemma connectPacket_wire_length (clientId : ClientId) (keepAlive : UInt16) :
    (connectPacket clientId keepAlive).contents.wire.length ≤ 325 := by
  have hc := clientId.length_le
  have hname : mqttProtocolName.length = 4 := rfl
  refine (frame_length (ConnectPacket.body_length_le (by decide) (by decide) _)).trans_le ?_
  simp only [ConnectPacket.contents,ConnectPacket.Contents.body,ConnectPacket.header,
    Option.map_none,optionField,List.length_append,field_length,HeaplessString.bytes_length,
    List.length_nil,List.length_cons,toBeBytes_length,hname,variableLengthLength]
  split_ifs <;> omega

lemma wellFormed_publishPacket {topic : Str} {topicName : TopicName 64}
    (ht : HeaplessString.tryFrom topic.1 = some topicName) (hne : topic.1 ≠ [])
    (payload : HeaplessVec UInt8 256) : (publishPacket topicName payload).WellFormed := by
  have hb := HeaplessString.bytes_of_tryFrom (by decide) ht
  exact {
    topicName := by rw [HeaplessString.Utf8,hb]; exact topic.2
    nonempty := by rw [hb]; exact hne
    packetId := by simp
    nonzero := by simp }

lemma wellFormed_connectPacket {clientId : Str} {id : ClientId}
    (hc : HeaplessString.tryFrom clientId.1 = some id) (keepAlive : UInt16) :
    (connectPacket id keepAlive).WellFormed := by
  have hb := HeaplessString.bytes_of_tryFrom (by decide) hc
  have hno : ∀ flag ∈ [ConnectFlags.willFlag,.username,.password],
      ¬ ConnectFlags.contains .cleanSession flag = true := by decide
  exact {
    reserved := show ConnectFlags.contains .cleanSession .reserved = false by decide
    clientId := by rw [HeaplessString.Utf8,hb]; exact clientId.2
    clean := fun _ => show ConnectFlags.contains .cleanSession .cleanSession = true by decide
    will := iff_of_false Bool.false_ne_true (hno _ (by simp))
    willPayload := iff_of_false Bool.false_ne_true (hno _ (by simp))
    willTopic := by simp
    username := iff_of_false Bool.false_ne_true (hno _ (by simp))
    usernameText := by simp
    password := iff_of_false Bool.false_ne_true (hno _ (by simp)) }

end Encode

/-- The messages, up to one that does not fit, and then DISCONNECT. -/
def published : List (Str × Str) → List (Packet 64 256)
  | [] => [.disconnect {}]
  | (topic,message)::messages =>
    match HeaplessString.tryFrom topic.1,HeaplessVec.collect message.1 with
    | some topicName,some payload => publishPacket topicName payload::published messages
    | _,_ => []

/-- What the client has to say, up to a text that does not fit. -/
def spoken (clientId : Str) (keepAlive : UInt16) (messages : List (Str × Str)) :
    List (Packet 64 256) :=
  match HeaplessString.tryFrom clientId.1 with
  | some clientId => connectPacket clientId keepAlive::published messages
  | none => []

def wires (packets : List (Packet 64 256)) : Bytes := packets.flatMap (·.contents.wire)

/-- The messages have a place in their packets. -/
def Fits (messages : List (Str × Str)) : Prop :=
  ∀ message ∈ messages, message.1.1.length ≤ 64 ∧ message.2.1.length ≤ 256

instance (messages : List (Str × Str)) : Decidable (Fits messages) :=
  inferInstanceAs (Decidable (∀ _ ∈ _, _))

section Write

variable {α β : Type} {data data' : Bytes} {client client' : MqttClient}

/-- A call that fails has written the beginning of the data, and one that succeeds all of it. -/
def Writes (client : MqttClient) (data : Bytes) : Outcome MqttClient ClientError α → Prop
  | .ok _ client' => client'.sent = client.sent ++ data
  | .err _ client' => client.sent <+: client'.sent ∧ client'.sent <+: client.sent ++ data
  | .abort _ => True

lemma Writes.andThen {o : Outcome MqttClient ClientError α} {f : α → Proc MqttClient ClientError β}
    (h : Writes client data o)
    (hf : ∀ a client', o = .ok a client' → Writes client' data' (f a client')) :
    Writes client (data ++ data') (o.andThen f) := by
  cases o with
  | ok a client' =>
    have hsent : client'.sent = client.sent ++ data := h
    have hnext := hf a client' rfl
    rw [Outcome.andThen_ok]
    cases hfa : f a client' with
    | ok b c =>
      rw [hfa] at hnext
      change c.sent = _
      rw [show c.sent = client'.sent ++ data' from hnext,hsent,List.append_assoc]
    | err e c =>
      rw [hfa] at hnext
      obtain ⟨hlow,hhigh⟩ : client'.sent <+: c.sent ∧ c.sent <+: client'.sent ++ data' := hnext
      rw [hsent] at hlow hhigh
      rw [List.append_assoc] at hhigh
      exact ⟨(List.prefix_append _ _).trans hlow,hhigh⟩
    | abort => trivial
  | err e client' =>
    obtain ⟨hlow,hhigh⟩ : client.sent <+: client'.sent ∧ client'.sent <+: client.sent ++ data := h
    refine ⟨hlow,hhigh.trans ?_⟩
    rw [← List.append_assoc]
    exact List.prefix_append _ _
  | abort => trivial

lemma writes_fail (e : ClientError) (client : MqttClient) (data : Bytes) :
    Writes client data (.err e client : Outcome MqttClient ClientError α) :=
  ⟨List.prefix_rfl,List.prefix_append _ _⟩

lemma writes_writeAll (data : Bytes) (client : MqttClient) :
    Writes client data (writeAll data client) := by
  unfold writeAll
  dsimp only
  split_ifs with h
  · exact congrArg (client.sent ++ ·) (List.take_of_length_le h)
  · exact ⟨List.prefix_append _ _,(List.prefix_append_right_inj _).mpr (List.take_prefix _ _)⟩

/-- A call that only reads. -/
lemma writes_zoom (p : Proc Source ClientError α) (client : MqttClient) :
    Writes client [] (Proc.zoom MqttClient.input (fun input client => { client with input }) p
      client) := by
  rw [Proc.zoom_apply]
  cases p client.input with
  | ok a t => exact (List.append_nil client.sent).symm
  | err e t => exact ⟨List.prefix_rfl,List.prefix_append _ _⟩
  | abort => trivial

lemma writes_readConnAck (client : MqttClient) : Writes client [] (readConnAck w client) := by
  rw [readConnAck,Proc.bind_apply,← List.append_nil []]
  refine (writes_zoom _ client).andThen (fun packet client' _ => ?_)
  cases packet with
  | connAck connAck => exact (List.append_nil client'.sent).symm
  | _ => exact writes_fail _ client' []

lemma publish_eq {message : Str × Str} (hne : message.1.1 ≠ []) {topicName : TopicName 64}
    {payload : HeaplessVec UInt8 256} (ht : HeaplessString.tryFrom message.1.1 = some topicName)
    (hv : HeaplessVec.collect message.2.1 = some payload) (client : MqttClient) :
    publish message.1 message.2 client =
      writeAll (publishPacket topicName payload).contents.wire client := by
  rw [publish,Proc.bind_apply,ht,Proc.okOr_some,Outcome.andThen_ok,Proc.bind_apply,hv,
    Proc.okOr_some,Outcome.andThen_ok,
    send_eq (wellFormed_publishPacket ht hne payload) (publishPacket_wire_length topicName payload)]

lemma disconnect_eq (client : MqttClient) : disconnect client =
    writeAll (Packet.disconnect {} : Packet 64 256).contents.wire client := by
  have hlen : (Packet.disconnect {} : Packet 64 256).contents.wire.length = 2 := by
    rw [Packet.contents,Packet.Contents.wire,frame_nil]
    rfl
  exact send_eq (show (Packet.disconnect {} : Packet 64 256).WellFormed from trivial)
    (hlen.trans_le (by decide)) client

lemma writes_published {messages : List (Str × Str)} (hne : ∀ message ∈ messages, message.1.1 ≠ [])
    (client : MqttClient) : Writes client (wires (published messages))
      ((Proc.forEach (fun message => publish message.1 message.2) messages >>= fun _ => disconnect)
        client) := by
  induction messages generalizing client with
  | nil =>
    rw [Proc.bind_apply,Proc.forEach_nil,Outcome.andThen_ok,disconnect_eq,published,wires,
      List.flatMap_singleton]
    exact writes_writeAll _ client
  | cons message messages ih =>
    obtain ⟨topic,text⟩ := message
    have htopic := hne (topic,text) List.mem_cons_self
    have hrest := fun client => ih (fun m hm => hne m (List.mem_cons_of_mem _ hm)) client
    rw [Proc.forEach_cons_bind,published]
    cases ht : HeaplessString.tryFrom topic.1 with
    | none =>
      rw [publish,Proc.bind_apply,ht]
      exact writes_fail _ client _
    | some topicName =>
      cases hv : HeaplessVec.collect text.1 with
      | none =>
        rw [publish,Proc.bind_apply,ht,Proc.okOr_some,Outcome.andThen_ok,Proc.bind_apply,hv]
        exact writes_fail _ client _
      | some payload =>
        rw [publish_eq htopic ht hv]
        exact (writes_writeAll _ client).andThen (fun _ client' _ => hrest client')

/-- Whatever becomes of the connection, the client has written the beginning of what it has to say, and
all of it when it succeeds. -/
lemma writes_session {messages : List (Str × Str)} (hne : ∀ message ∈ messages, message.1.1 ≠ [])
    (clientId : Str) (keepAlive : UInt16) (client : MqttClient) :
    Writes client (wires (spoken clientId keepAlive messages))
      (session w clientId keepAlive messages client) := by
  rw [session,Proc.bind_apply,spoken]
  cases hc : HeaplessString.tryFrom clientId.1 with
  | none =>
    rw [connect,Proc.bind_apply,hc]
    exact writes_fail _ client _
  | some id =>
    change Writes client (_ ++ wires (published messages)) _
    refine Writes.andThen ?_ (fun _ client' _ => writes_published hne client')
    -- only the packet is written, the answer is read
    have hanswer : ∀ c : MqttClient, Writes c [] ((readConnAck w >>= fun connAck =>
        Proc.failIf (connAck.returnCode ≠ .accepted) (.rejected connAck.returnCode)) c) := by
      intro c
      rw [Proc.bind_apply,← List.append_nil []]
      refine (writes_readConnAck c).andThen (fun connAck c' _ => ?_)
      by_cases ha : connAck.returnCode ≠ .accepted
      · rw [Proc.failIf_pos ha]
        exact writes_fail _ c' []
      · rw [Proc.failIf_neg ha]
        exact (List.append_nil c'.sent).symm
    have hconnect := (writes_writeAll (connectPacket id keepAlive).contents.wire client).andThen
      (fun _ c _ => hanswer c)
    rw [connect,Proc.bind_apply,hc,Proc.okOr_some,Outcome.andThen_ok,Proc.bind_apply,
      send_eq (wellFormed_connectPacket hc keepAlive) (connectPacket_wire_length id keepAlive)]
    rwa [List.append_nil] at hconnect

end Write

/-! ### When the client succeeds -/

section Success

variable {data : Bytes} {client : MqttClient} {messages : List (Str × Str)}

lemma writeAll_ok (h : data.length ≤ client.writable) : writeAll data client =
    .ok () ⟨client.input,client.sent ++ data,client.writable-data.length⟩ := by
  simp only [writeAll,if_pos h,List.take_of_length_le h]

lemma writeAll_err (h : ¬ data.length ≤ client.writable) :
    ∃ client', writeAll data client = .err .broken client' := by
  simp only [writeAll,if_neg h]
  exact ⟨_,rfl⟩

/-- The client reads a packet exactly where the server would. -/
lemma readPacket_eq_ok {s t : Source} {packet : Packet 64 256} : readPacket w s = .ok packet t ↔
    TokioServer.readPacket w s = .ok (some packet) t := by
  rw [readPacket,TokioServer.readPacket,Proc.bind_apply,Proc.bind_apply,Source.fill_apply,
    Source.fill_apply,Outcome.andThen_ok,Outcome.andThen_ok]
  generalize Source.fillLoop 2 s.chunks s.buffer = r
  obtain ⟨started,u⟩ := r
  cases started with
  | false => simp
  | true =>
    simp only [TokioServer.readFrame,TokioServer.parseRemainingLength,Proc.bind_apply,Proc.get_apply,
      Outcome.andThen_ok,Proc.call_apply,Proc.mapErr_apply,Bool.true_eq_false,if_false,
      Proc.failIf_neg not_false]
    cases parseRemainingLengthFrom w u.buffer with
    | err e _ => simp
    | abort why => simp
    | ok r _ =>
      obtain ⟨remainingLen,varLenBytes⟩ := r
      simp only [Outcome.mapState_ok,Outcome.mapErr_ok,Outcome.andThen_ok]
      rw [Proc.bind_apply,Proc.bind_apply,Source.fill_apply,Source.fill_apply,Outcome.andThen_ok,
        Outcome.andThen_ok]
      generalize Source.fillLoop (1+varLenBytes+remainingLen) u.chunks u.buffer = r
      obtain ⟨filled,v⟩ := r
      cases filled with
      | false => simp
      | true =>
        simp only [Bool.true_eq_false,Proc.bind_apply,Proc.get_apply,Proc.failIf_neg not_false,
          Outcome.andThen_ok,slice]
        split_ifs
        · simp only [Proc.pure_apply,Outcome.andThen_ok]
          cases Packet.decode w _ with
          | ok p _ => simp
          | err e _ => simp
          | abort why => simp
        · simp

lemma length_le_of_tryFrom {N : ℕ} (hN : N ≤ 255) {value : Bytes} {string : HeaplessString N}
    (h : HeaplessString.tryFrom value = some string) : value.length ≤ N := by
  rw [← HeaplessString.bytes_of_tryFrom hN h,HeaplessString.bytes_length]
  exact string.length_le

lemma published_ok_iff (hne : ∀ message ∈ messages, message.1.1 ≠ []) :
    (∃ client', (Proc.forEach (fun message => publish message.1 message.2) messages >>=
      fun _ => disconnect) client = .ok () client') ↔
    Fits messages ∧ (wires (published messages)).length ≤ client.writable := by
  induction messages generalizing client with
  | nil =>
    rw [Proc.bind_apply,Proc.forEach_nil,Outcome.andThen_ok,disconnect_eq,published,wires,
      List.flatMap_singleton]
    constructor
    · rintro ⟨client',hrun⟩
      refine ⟨by simp [Fits],?_⟩
      by_contra hroom
      obtain ⟨c,hc⟩ := writeAll_err hroom
      rw [hc] at hrun
      cases hrun
    · rintro ⟨-,hroom⟩
      exact ⟨_,writeAll_ok hroom⟩
  | cons message messages ih =>
    obtain ⟨topic,text⟩ := message
    have htopic := hne (topic,text) List.mem_cons_self
    have hrest := fun client => @ih client (fun m hm => hne m (List.mem_cons_of_mem _ hm))
    rw [Proc.forEach_cons_bind,published,Fits,List.forall_mem_cons]
    by_cases hfit : topic.1.length ≤ 64 ∧ text.1.length ≤ 256
    · obtain ⟨topicName,ht,-⟩ := HeaplessString.tryFrom_eq_some (N := 64) (by decide) hfit.1
      obtain ⟨payload,hv,-⟩ := HeaplessVec.collect_eq_some (N := 256) (by decide) hfit.2
      rw [publish_eq htopic ht hv,ht,hv,and_iff_right hfit]
      dsimp only
      rw [wires,List.flatMap_cons,List.length_append]
      by_cases hroom : (publishPacket topicName payload).contents.wire.length ≤ client.writable
      · rw [writeAll_ok hroom,Outcome.andThen_ok,hrest]
        exact and_congr_right (fun _ => by rw [wires]; dsimp only; omega)
      · obtain ⟨c,hc⟩ := writeAll_err hroom
        rw [hc,Outcome.andThen_err]
        refine iff_of_false ?_ (fun h => hroom (by omega))
        rintro ⟨client',hrun⟩
        cases hrun
    · refine iff_of_false ?_ (fun h => hfit h.1.1)
      rintro ⟨client',hrun⟩
      obtain ⟨_,c,hrun,-⟩ := Outcome.andThen_eq_ok.mp hrun
      dsimp only at hrun
      rw [publish,Proc.bind_eq_ok] at hrun
      obtain ⟨topicName,c₁,htopic',hrun⟩ := hrun
      obtain ⟨payload,c₂,hpayload,-⟩ := Proc.bind_eq_ok.mp hrun
      exact hfit ⟨length_le_of_tryFrom (by decide) (Proc.okOr_eq_ok.mp htopic').1,
        HeaplessVec.length_le_of_collect (Proc.okOr_eq_ok.mp hpayload).1⟩

lemma readConnAck_of_ok (client : MqttClient) {connAck : ConnAckPacket} {t : Source}
    (hr : TokioServer.readPacket w client.input =
      .ok (some (.connAck connAck : Packet 64 256)) t) :
    readConnAck w client = .ok connAck { client with input := t } := by
  rw [readConnAck,Proc.bind_apply,Proc.zoom_apply,readPacket_eq_ok.mpr hr]
  rfl

lemma readConnAck_eq_ok {client' : MqttClient} {connAck : ConnAckPacket}
    (h : readConnAck w client = .ok connAck client') : ∃ t, client' = { client with input := t } ∧
      TokioServer.readPacket w client.input = .ok (some (.connAck connAck : Packet 64 256)) t := by
  rw [readConnAck,Proc.bind_eq_ok] at h
  obtain ⟨packet,c,hread,hp⟩ := h
  rw [Proc.zoom_apply] at hread
  cases hr : readPacket w client.input with
  | ok p t =>
    rw [hr,Outcome.mapState_ok] at hread
    cases hread
    cases packet with
    | connAck _ =>
      cases hp
      exact ⟨t,rfl,readPacket_eq_ok.mp hr⟩
    | _ => cases hp
  | err e t =>
    rw [hr] at hread
    cases hread
  | abort why =>
    rw [hr] at hread
    cases hread

/-- The client succeeds exactly when its texts fit into their packets, the socket takes all it writes,
and the first packet of the server is a CONNACK that accepts the connection. -/
theorem session_ok_iff (hne : ∀ message ∈ messages, message.1.1 ≠ []) (clientId : Str)
    (keepAlive : UInt16) :
    (∃ client', session w clientId keepAlive messages client = .ok () client') ↔
      clientId.1.length ≤ 23 ∧ Fits messages ∧
      (wires (spoken clientId keepAlive messages)).length ≤ client.writable ∧
      ∃ connAck t, TokioServer.readPacket w client.input =
        .ok (some (.connAck connAck : Packet 64 256)) t ∧ connAck.returnCode = .accepted := by
  by_cases hfit : clientId.1.length ≤ 23
  · obtain ⟨id,hc,-⟩ := HeaplessString.tryFrom_eq_some (N := 23) (by decide) hfit
    rw [session,spoken,and_iff_right hfit,Proc.bind_apply,connect,Proc.bind_apply,hc,Proc.okOr_some,
      Outcome.andThen_ok,Proc.bind_apply,
      send_eq (wellFormed_connectPacket hc keepAlive) (connectPacket_wire_length id keepAlive)]
    dsimp only
    rw [wires,List.flatMap_cons,List.length_append]
    by_cases hroom : (connectPacket id keepAlive).contents.wire.length ≤ client.writable
    · rw [writeAll_ok hroom,Outcome.andThen_ok]
      constructor
      · rintro ⟨client',hrun⟩
        obtain ⟨_,c,hconn,hrest⟩ := Outcome.andThen_eq_ok.mp hrun
        obtain ⟨connAck,c',hread,hcode⟩ := Proc.bind_eq_ok.mp hconn
        obtain ⟨t,rfl,hr⟩ := readConnAck_eq_ok hread
        obtain ⟨haccepted,rfl⟩ := Proc.failIf_eq_ok.mp hcode
        obtain ⟨hfits,hlen⟩ := (published_ok_iff hne).mp ⟨client',hrest⟩
        rw [wires] at hlen
        dsimp only at hlen
        exact ⟨hfits,by omega,connAck,t,hr,not_not.mp haccepted⟩
      · rintro ⟨hfits,hlen,connAck,t,hr,hcode⟩
        have hack := readConnAck_of_ok ⟨client.input,
          client.sent ++ (connectPacket id keepAlive).contents.wire,
          client.writable-(connectPacket id keepAlive).contents.wire.length⟩ hr
        rw [Proc.bind_apply,hack,Outcome.andThen_ok,Proc.failIf_neg (not_not.mpr hcode),
          Outcome.andThen_ok]
        refine (published_ok_iff hne).mpr ⟨hfits,?_⟩
        rw [wires]
        dsimp only
        omega
    · obtain ⟨c,hw⟩ := writeAll_err hroom
      rw [hw]
      refine iff_of_false ?_ (fun h => hroom (by omega))
      rintro ⟨client',hrun⟩
      cases hrun
  · refine iff_of_false ?_ (fun h => hfit h.1)
    rintro ⟨client',hrun⟩
    obtain ⟨_,c,hconn,-⟩ := Proc.bind_eq_ok.mp hrun
    obtain ⟨id,c',hid,-⟩ := Proc.bind_eq_ok.mp hconn
    exact hfit (length_le_of_tryFrom (by decide) (Proc.okOr_eq_ok.mp hid).1)

/-- The answer of the server comes in two chunks. -/
theorem session_ok_main : ∃ client', main 64 ⟨⟨[],[[0x20,0x02],[0x00,0x00]]⟩,[],100⟩ = .ok () client' := by
  refine (session_ok_iff (by decide +kernel) _ _).mpr
    ⟨by decide +kernel,by decide +kernel,by decide +kernel,.default,⟨[],[]⟩,by decide +kernel,rfl⟩

end Success

/-! ### What the server makes of it -/

section Server

variable {messages : List (Str × Str)}

lemma wellFormed_published (hne : ∀ message ∈ messages, message.1.1 ≠ []) :
    ∀ packet ∈ published messages, packet.WellFormed := by
  induction messages with
  | nil =>
    intro packet hp
    rw [List.mem_singleton.mp hp]
    trivial
  | cons message messages ih =>
    obtain ⟨topic,text⟩ := message
    intro packet hp
    rw [published] at hp
    split at hp
    next topicName payload ht hv =>
      obtain rfl | hp := List.mem_cons.mp hp
      · exact wellFormed_publishPacket ht (hne (topic,text) List.mem_cons_self) payload
      · exact ih (fun m hm => hne m (List.mem_cons_of_mem _ hm)) packet hp
    next => cases hp

lemma wellFormed_spoken (hne : ∀ message ∈ messages, message.1.1 ≠ []) (clientId : Str)
    (keepAlive : UInt16) : ∀ packet ∈ spoken clientId keepAlive messages, packet.WellFormed := by
  intro packet hp
  rw [spoken] at hp
  split at hp
  next id hc =>
    obtain rfl | hp := List.mem_cons.mp hp
    · exact wellFormed_connectPacket hc keepAlive
    · exact wellFormed_published hne packet hp
  next => cases hp

/-- The frame of a well-formed packet is one frame for the reader of the server, and is decoded to a
packet that says the same. -/
lemma isFrame_wire {T P : ℕ} (hw : 32 ≤ w) (hT : T ≤ 255) (hP : P ≤ 65535) {packet : Packet T P}
    (h : packet.WellFormed) : (∃ r k, IsFrame w packet.contents.wire r k) ∧
      ∃ q : Packet T P, Packet.decode w packet.contents.wire = .ok q () ∧
        q.contents = packet.contents := by
  constructor
  · obtain ⟨header,body,hwire,hl⟩ : ∃ header body, packet.contents.wire = frame header body ∧
        body.length ≤ maxVariableLength := by
      cases hp : packet.fixedBody with
      | some body =>
        have hl := Packet.fixedBody_length_le hp
        exact ⟨_,body,Packet.wire_of_fixedBody hp,by rw [maxVariableLength]; omega⟩
      | none =>
        obtain ⟨-,body,hwire,hl,-⟩ := h.spells hT hP hp
        exact ⟨_,body,hwire,hl⟩
    refine ⟨body.length,(variableLengthBytes body.length).length,?_,?_⟩
    · rw [hwire,frame,List.tail_cons,readVariableLength_eq_ok hw]
      exact lengthField_bytes hl body
    · rw [hwire,frame,List.length_cons,List.length_append]
      omega
  · obtain ⟨q,hq,hc⟩ := Packet.decode_wire hw hT hP h []
    rw [List.append_nil] at hq
    exact ⟨q,hq,hc⟩

lemma frames_wires {T P : ℕ} (hw : 32 ≤ w) (hT : T ≤ 255) (hP : P ≤ 65535)
    {packets : List (Packet T P)} (h : ∀ packet ∈ packets, packet.WellFormed) :
    ∃ received : List (Packet T P), received.map Packet.contents = packets.map Packet.contents ∧
      List.Forall₂ (fun f p => (∃ r k, IsFrame w f r k) ∧ Packet.decode w f = .ok p ())
        (packets.map (·.contents.wire)) received := by
  induction packets with
  | nil => exact ⟨[],rfl,.nil⟩
  | cons packet packets ih =>
    obtain ⟨received,hmap,hframes⟩ := ih (fun p hp => h p (List.mem_cons_of_mem _ hp))
    obtain ⟨hframe,q,hq,hc⟩ := isFrame_wire hw hT hP (h packet List.mem_cons_self)
    refine ⟨q::received,?_,.cons ⟨hframe,hq⟩ hframes⟩
    rw [List.map_cons,List.map_cons,hc,hmap]

open TokioServer System in
/-- The server processes what the client means to say, from its CONNECT on and in order: whatever
becomes of the client and its connection, in whatever chunks the bytes come, and whatever the order in
which the tasks of the server run. -/
theorem understood {Q S M B F : ℕ} {cfg : Config} {system : System 64 256 Q S M B F}
    {hist : List (System 64 256 Q S M B F × Event)} {i : ℕ} {h : Handler 64 256 F}
    (hw : 32 ≤ cfg.wordBits) (hr : Run (next cfg) new hist system)
    (hi : system.handlers[i]? = some h) (hne : ∀ message ∈ messages, message.1.1 ≠ [])
    {clientId : Str} {keepAlive : UInt16} {client client' : MqttClient} (hstart : client.sent = [])
    (hclient : (session w clientId keepAlive messages client).state? = some client')
    {chunks : List Bytes} (hoffered : (offered hist)[i]? = some chunks)
    (hchunks : ∀ chunk ∈ chunks, chunk ≠ []) (hsent : chunks.flatten <+: client'.sent) :
    (processed i hist ++ h.phase.pending).map Packet.contents <+:
      (spoken clientId keepAlive messages).map Packet.contents := by
  have hwrites := writes_session (w := w) hne clientId keepAlive client
  have hsaid : client'.sent <+: wires (spoken clientId keepAlive messages) := by
    cases hs : session w clientId keepAlive messages client with
    | ok u c =>
      rw [hs] at hwrites hclient
      cases hclient
      rw [show client'.sent = client.sent ++ _ from hwrites,hstart,List.nil_append]
    | err e c =>
      rw [hs] at hwrites hclient
      cases hclient
      obtain ⟨-,hpre⟩ : client.sent <+: client'.sent ∧ client'.sent <+: client.sent ++ _ := hwrites
      rwa [hstart,List.nil_append] at hpre
    | abort why =>
      rw [hs] at hclient
      cases hclient
  obtain ⟨received,hmap,hframes⟩ := frames_wires hw (by decide) (by decide)
    (wellFormed_spoken hne clientId keepAlive)
  rw [← hmap]
  refine (processed_in_order hw hr hi hoffered hframes hchunks ?_).map _
  rw [← List.flatMap_def]
  exact hsent.trans hsaid

/-- The connection breaks in the middle of the PUBLISH. -/
def cutClient : MqttClient :=
  ((main 64 ⟨⟨[],[[0x20,0x02],[0x00,0x00]]⟩,[],50⟩).state?).get (by decide +kernel)

open TokioServer System

def cutEvents : List Event := arrival 0 [cutClient.sent] ++ [.task 0 (.read 1),.task 0 (.serve 1)]

def cut : System 64 256 1 1 1 1 1 := (exec (next hostConfig) new cutEvents).get (by decide +kernel)
def cutTask : Handler 64 256 1 := cut.handlers.get ⟨0,by decide +kernel⟩
def cutTrace : List (System 64 256 1 1 1 1 1 × Event) := trace (next hostConfig) new cutEvents

theorem understood_cut : (processed 0 cutTrace ++ cutTask.phase.pending).map Packet.contents <+:
    (spoken (text "tokio-client") 60 mainMessages).map Packet.contents :=
  understood (w := 64) (by decide) (run_trace (Option.some_get (by decide +kernel)).symm)
    (List.getElem?_eq_getElem (by decide +kernel)) (by decide +kernel)
    (show MqttClient.sent ⟨⟨[],[[0x20,0x02],[0x00,0x00]]⟩,[],50⟩ = [] from rfl)
    (Option.some_get (by decide +kernel)).symm
    (show (offered cutTrace)[0]? = some [cutClient.sent] by decide +kernel) (by decide +kernel)
    (by rw [List.flatten_singleton]; exact List.prefix_rfl)

end Server

end TokioClient

end Picobroker
