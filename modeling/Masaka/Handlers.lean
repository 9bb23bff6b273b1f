import Masaka.Config
import Masaka.Tables

/-!
The two protocol handlers: the packets they create, and what they make of a
received packet. Their common laws are stated through the shape of a packet, the
part of it that both versions share.
-/
namespace Masaka
open Tables

/-- `Packet::encode` of `mqtt_proto`, which is not part of this repository. -/
class Codec (P : Type) (E : outParam Type) where
  encode : P → Except E VarBytes

/-- `MqttProtocolHandler`. Neither handler changes itself in `handle_packet`. -/
class MqttProtocolHandler (H : Type) (P E : outParam Type) where
  create_connect_packet (h : H) (client_id : String) (username : Option String) (password : Option Bytes)
    (keep_alive : UInt16) (clean_session : Bool) : Except E P
  create_connect_with_will_packet (h : H) (client_id : String) (username : Option String) (password : Option Bytes)
    (keep_alive : UInt16) (clean_session : Bool) (will_topic : TopicName) (will_message : Bytes) (will_qos : QoS)
    (will_retain : Bool) : Except E P
  create_publish_packet (h : H) (topic : TopicName) (qos : QoS) (retain : Bool) (payload : Bytes) (pid : Option Pid)
    (dup : Bool) : Except E P
  create_subscribe_packet (h : H) (subscriptions : List (TopicFilter × QoS)) (pid : Pid) : Except E P
  create_unsubscribe_packet (h : H) (topics : List TopicFilter) (pid : Pid) : Except E P
  create_puback_packet (h : H) (pid : Pid) : Except E P
  create_pubrec_packet (h : H) (pid : Pid) : Except E P
  create_pubrel_packet (h : H) (pid : Pid) : Except E P
  create_pubcomp_packet (h : H) (pid : Pid) : Except E P
  create_pingreq_packet (h : H) : P
  create_disconnect_packet (h : H) : P
  encode_packet (h : H) (packet : P) : Except E VarBytes
  handle_packet (h : H) (packet : P) : Except E PacketAction
  /-- `Into<MqttError>` of the error type. -/
  into : E → MqttError

/-- The level and identifier of a PUBLISH: an identifier goes with the levels above 0. -/
def qos_pid : QoS → Option Pid → Except MqttProtoError QosPid
  | .Level0, some _ => .error .ZeroPid
  | .Level0, none => .ok .Level0
  | .Level1, pid => (pid.map QosPid.Level1).elim (.error .ZeroPid) .ok
  | .Level2, pid => (pid.map QosPid.Level2).elim (.error .ZeroPid) .ok

/-! ### Version 3.1.1 -/

structure V3Handler where
  deriving DecidableEq

namespace V3Handler

def create_connect_packet (client_id : String) (username : Option String) (password : Option Bytes)
    (keep_alive : UInt16) (clean_session : Bool) : Except MqttProtoError V3.Packet :=
  .ok (.Connect {
    protocol := .V311, keep_alive := keep_alive, client_id := client_id, clean_session := clean_session
    last_will := none, username := username, password := password })

def create_connect_with_will_packet (client_id : String) (username : Option String) (password : Option Bytes)
    (keep_alive : UInt16) (clean_session : Bool) (will_topic : TopicName) (will_message : Bytes) (will_qos : QoS)
    (will_retain : Bool) : Except MqttProtoError V3.Packet :=
  .ok (.Connect {
    protocol := .V311, keep_alive := keep_alive, client_id := client_id, clean_session := clean_session
    last_will := some { topic_name := will_topic, message := will_message, qos := will_qos, retain := will_retain }
    username := username, password := password })

def create_publish_packet (topic : TopicName) (qos : QoS) (retain : Bool) (payload : Bytes) (pid : Option Pid)
    (dup : Bool) : Except MqttProtoError V3.Packet := do
  let qos_pid ← qos_pid qos pid
  return .Publish { dup := dup, qos_pid := qos_pid, retain := retain, topic_name := topic, payload := payload }

def create_subscribe_packet (subscriptions : List (TopicFilter × QoS)) (pid : Pid) :
    Except MqttProtoError V3.Packet :=
  if subscriptions.isEmpty then .error .EmptySubscription
  else .ok (.Subscribe { pid := pid, topics := subscriptions })

def create_unsubscribe_packet (topics : List TopicFilter) (pid : Pid) : Except MqttProtoError V3.Packet :=
  if topics.isEmpty then .error .EmptySubscription
  else .ok (.Unsubscribe { pid := pid, topics := topics })

def handle_packet : V3.Packet → Except MqttProtoError PacketAction
  | .Connack connack => .ok (.ConnectAck connack.session_present connack.code)
  | .Publish publish =>
    .ok (.PublishReceived publish.topic_name publish.qos_pid.qos publish.retain publish.payload publish.qos_pid.pid)
  | .Puback pid => .ok (.PublishAck pid)
  | .Pubrec pid => .ok (.PublishRec pid)
  | .Pubrel pid => .ok (.PublishRelease pid)
  | .Pubcomp pid => .ok (.PublishComplete pid)
  | .Suback suback => .ok (.SubscribeAck suback.pid suback.topics)
  | .Unsuback pid => .ok (.UnsubscribeAck pid)
  | .Pingresp => .ok .PingResponse
  -- These packets should not be received by a client.
  | .Connect _ | .Subscribe _ | .Unsubscribe _ | .Pingreq | .Disconnect => .error .InvalidHeader

end V3Handler

instance [Codec V3.Packet MqttProtoError] : MqttProtocolHandler V3Handler V3.Packet MqttProtoError where
  create_connect_packet _ := V3Handler.create_connect_packet
  create_connect_with_will_packet _ := V3Handler.create_connect_with_will_packet
  create_publish_packet _ := V3Handler.create_publish_packet
  create_subscribe_packet _ := V3Handler.create_subscribe_packet
  create_unsubscribe_packet _ := V3Handler.create_unsubscribe_packet
  create_puback_packet _ pid := .ok (.Puback pid)
  create_pubrec_packet _ pid := .ok (.Pubrec pid)
  create_pubrel_packet _ pid := .ok (.Pubrel pid)
  create_pubcomp_packet _ pid := .ok (.Pubcomp pid)
  create_pingreq_packet _ := .Pingreq
  create_disconnect_packet _ := .Disconnect
  encode_packet _ := Codec.encode
  handle_packet _ := V3Handler.handle_packet
  into err := .Protocol (.InvalidPacket err)

/-! ### Version 5.0 -/

structure V5Handler where
  connect_config : V5ConnectConfig
  topic_aliases : HashMap TopicName UInt16
  next_topic_alias : UInt16
  deriving DecidableEq

namespace V5Handler

/-- `V5Handler::with_config`. -/
def with_config (config : V5ConnectConfig) : V5Handler where
  connect_config := config
  topic_aliases := ∅
  next_topic_alias := 1

/-- Replaces the alias of a topic that has one, and gives the next alias to
    a topic that comes without one. The counter wraps around as in a release
    build; a debug build panics there. -/
def create_publish_with_config (topic : TopicName) (qos : QoS) (retain : Bool) (payload : Bytes) (pid : Option Pid)
    (dup : Bool) (config : V5PublishConfig) (h : V5Handler) : Except ErrorV5 V5.Packet × V5Handler :=
  match qos_pid qos pid with
  | .error err => (.error (.Common err), h)
  | .ok qos_pid =>
    let properties : V5.PublishProperties := {
      payload_is_utf8 := config.payload_format_indicator
      message_expiry_interval := config.message_expiry_interval
      topic_alias := config.topic_alias
      response_topic := config.response_topic
      correlation_data := config.correlation_data
      subscription_ids := config.subscription_identifiers
      content_type := config.content_type
      user_properties := config.user_properties }
    let publish (properties : V5.PublishProperties) : V5.Packet := .Publish {
      dup := dup, qos_pid := qos_pid, retain := retain, topic_name := topic, payload := payload
      properties := properties }
    match h.topic_aliases.lookup topic with
    | some known => (.ok (publish { properties with topic_alias := some known }), h)
    | none =>
      if properties.topic_alias.isNone then
        (.ok (publish { properties with topic_alias := some h.next_topic_alias }),
          { h with topic_aliases := h.topic_aliases.insert topic h.next_topic_alias
                   next_topic_alias := h.next_topic_alias + 1 })
      else (.ok (publish properties), h)

def create_subscribe_with_config (subscriptions : List (TopicFilter × QoS)) (pid : Pid) (config : V5SubscribeConfig) :
    Except ErrorV5 V5.Packet :=
  if subscriptions.isEmpty then .error (.Common .EmptySubscription)
  else .ok (.Subscribe {
    pid := pid, topics := subscriptions.map fun (filter, qos) => (filter, ⟨qos⟩)
    properties := { subscription_id := config.subscription_identifier, user_properties := config.user_properties } })

/-- The CONNECT with the configured properties and the given will. -/
def connect (h : V5Handler) (client_id : String) (username : Option String) (password : Option Bytes)
    (keep_alive : UInt16) (clean_session : Bool) (last_will : Option V5.LastWill) : V5.Packet :=
  .Connect {
    protocol := .V500, clean_start := clean_session, keep_alive := keep_alive, client_id := client_id
    last_will := last_will, username := username, password := password
    properties := {
      session_expiry_interval := h.connect_config.session_expiry_interval
      receive_max := h.connect_config.receive_maximum
      max_packet_size := h.connect_config.maximum_packet_size
      topic_alias_max := h.connect_config.topic_alias_maximum
      request_response_info := h.connect_config.request_response_information
      request_problem_info := h.connect_config.request_problem_information
      auth_method := h.connect_config.authentication_method
      auth_data := h.connect_config.authentication_data
      user_properties := h.connect_config.user_properties } }

def create_connect_packet (h : V5Handler) (client_id : String) (username : Option String) (password : Option Bytes)
    (keep_alive : UInt16) (clean_session : Bool) : Except ErrorV5 V5.Packet :=
  .ok (h.connect client_id username password keep_alive clean_session none)

def create_connect_with_will_packet (h : V5Handler) (client_id : String) (username : Option String)
    (password : Option Bytes) (keep_alive : UInt16) (clean_session : Bool) (will_topic : TopicName)
    (will_message : Bytes) (will_qos : QoS) (will_retain : Bool) : Except ErrorV5 V5.Packet :=
  .ok (h.connect client_id username password keep_alive clean_session
    (some { qos := will_qos, retain := will_retain, topic_name := will_topic, payload := will_message }))

def create_publish_packet (topic : TopicName) (qos : QoS) (retain : Bool) (payload : Bytes) (pid : Option Pid)
    (dup : Bool) : Except ErrorV5 V5.Packet :=
  match qos_pid qos pid with
  | .error err => .error (.Common err)
  | .ok qos_pid =>
    .ok (.Publish {
      dup := dup, qos_pid := qos_pid, retain := retain, topic_name := topic, payload := payload, properties := {} })

def create_subscribe_packet (subscriptions : List (TopicFilter × QoS)) (pid : Pid) : Except ErrorV5 V5.Packet :=
  if subscriptions.isEmpty then .error (.Common .EmptySubscription)
  else .ok (.Subscribe {
    pid := pid, topics := subscriptions.map fun (filter, qos) => (filter, ⟨qos⟩), properties := {} })

def create_unsubscribe_packet (topics : List TopicFilter) (pid : Pid) : Except ErrorV5 V5.Packet :=
  if topics.isEmpty then .error (.Common .EmptySubscription)
  else .ok (.Unsubscribe { pid := pid, topics := topics })

/-- The reason codes of acknowledgments, and the limits of a CONNACK, are only logged. -/
def handle_packet : V5.Packet → Except ErrorV5 PacketAction
  | .Connack connack => .ok (.ConnectAck connack.session_present connack.reason_code)
  | .Publish publish =>
    .ok (.PublishReceived publish.topic_name publish.qos_pid.qos publish.retain publish.payload publish.qos_pid.pid)
  | .Puback ack => .ok (.PublishAck ack.pid)
  | .Pubrec ack => .ok (.PublishRec ack.pid)
  | .Pubrel ack => .ok (.PublishRelease ack.pid)
  | .Pubcomp ack => .ok (.PublishComplete ack.pid)
  | .Suback suback => .ok (.SubscribeAck suback.pid suback.topics)
  | .Unsuback unsuback => .ok (.UnsubscribeAck unsuback.pid)
  | .Pingresp => .ok .PingResponse
  | .Disconnect _ => .ok .None
  -- These packets should not be received by a client.
  | .Connect _ | .Subscribe _ | .Unsubscribe _ | .Pingreq | .Auth _ => .error (.Common .InvalidHeader)

end V5Handler

instance [Codec V5.Packet ErrorV5] : MqttProtocolHandler V5Handler V5.Packet ErrorV5 where
  create_connect_packet := V5Handler.create_connect_packet
  create_connect_with_will_packet := V5Handler.create_connect_with_will_packet
  create_publish_packet _ := V5Handler.create_publish_packet
  create_subscribe_packet _ := V5Handler.create_subscribe_packet
  create_unsubscribe_packet _ := V5Handler.create_unsubscribe_packet
  create_puback_packet _ pid := .ok (.Puback ⟨pid, 0⟩)
  create_pubrec_packet _ pid := .ok (.Pubrec ⟨pid, 0⟩)
  create_pubrel_packet _ pid := .ok (.Pubrel ⟨pid, 0⟩)
  create_pubcomp_packet _ pid := .ok (.Pubcomp ⟨pid, 0⟩)
  create_pingreq_packet _ := .Pingreq
  create_disconnect_packet _ := .Disconnect 0
  encode_packet _ := Codec.encode
  handle_packet _ := V5Handler.handle_packet
  into err := .Protocol (.V5Specific err)

/-! ### What the handlers have in common -/

/-- What both versions have in common in a packet. -/
inductive Shape where
  | connect (clean_session : Bool)
  | connack (session_present : Bool) (code : UInt8)
  | publish (publish : V3.Publish)
  | puback (pid : Pid)
  | pubrec (pid : Pid)
  | pubrel (pid : Pid)
  | pubcomp (pid : Pid)
  | subscribe (pid : Pid) (topics : List (TopicFilter × QoS))
  | suback (pid : Pid) (codes : List UInt8)
  | unsubscribe (pid : Pid) (topics : List TopicFilter)
  | unsuback (pid : Pid)
  | pingreq
  | pingresp
  | disconnect
  | auth
  deriving DecidableEq

def V3.Packet.shape : V3.Packet → Shape
  | .Connect connect => .connect connect.clean_session
  | .Connack connack => .connack connack.session_present connack.code
  | .Publish publish => .publish publish
  | .Puback pid => .puback pid
  | .Pubrec pid => .pubrec pid
  | .Pubrel pid => .pubrel pid
  | .Pubcomp pid => .pubcomp pid
  | .Subscribe subscribe => .subscribe subscribe.pid subscribe.topics
  | .Suback suback => .suback suback.pid suback.topics
  | .Unsubscribe unsubscribe => .unsubscribe unsubscribe.pid unsubscribe.topics
  | .Unsuback pid => .unsuback pid
  | .Pingreq => .pingreq
  | .Pingresp => .pingresp
  | .Disconnect => .disconnect

/-- A version 5.0 PUBLISH without its properties. -/
def V5.Publish.common (publish : V5.Publish) : V3.Publish where
  dup := publish.dup
  qos_pid := publish.qos_pid
  retain := publish.retain
  topic_name := publish.topic_name
  payload := publish.payload

def V5.Packet.shape : V5.Packet → Shape
  | .Connect connect => .connect connect.clean_start
  | .Connack connack => .connack connack.session_present connack.reason_code
  | .Publish publish => .publish publish.common
  | .Puback ack => .puback ack.pid
  | .Pubrec ack => .pubrec ack.pid
  | .Pubrel ack => .pubrel ack.pid
  | .Pubcomp ack => .pubcomp ack.pid
  | .Subscribe subscribe => .subscribe subscribe.pid (subscribe.topics.map fun (filter, o) => (filter, o.max_qos))
  | .Suback suback => .suback suback.pid suback.topics
  | .Unsubscribe unsubscribe => .unsubscribe unsubscribe.pid unsubscribe.topics
  | .Unsuback unsuback => .unsuback unsuback.pid
  | .Pingreq => .pingreq
  | .Pingresp => .pingresp
  | .Disconnect _ => .disconnect
  | .Auth _ => .auth

/-- What a packet of the shape asks of a client, where both versions agree on it. -/
def Shape.action : Shape → Option PacketAction
  | .connack session_present code => some (.ConnectAck session_present code)
  | .publish p => some (.PublishReceived p.topic_name p.qos_pid.qos p.retain p.payload p.qos_pid.pid)
  | .puback pid => some (.PublishAck pid)
  | .pubrec pid => some (.PublishRec pid)
  | .pubrel pid => some (.PublishRelease pid)
  | .pubcomp pid => some (.PublishComplete pid)
  | .suback pid codes => some (.SubscribeAck pid codes)
  | .unsuback pid => some (.UnsubscribeAck pid)
  | .pingresp => some .PingResponse
  | .connect _ | .subscribe _ _ | .unsubscribe _ _ | .pingreq | .disconnect | .auth => none

/-- The second PUBLISH is the first one with the DUP flag set. -/
def V3.Packet.Repeats (first again : V3.Packet) : Prop :=
  ∃ publish, first = .Publish publish ∧ again = .Publish { publish with dup := true }

/-- The second PUBLISH is the first one with the DUP flag set, perhaps without a topic alias. -/
def V5.Packet.Repeats (first again : V5.Packet) : Prop :=
  ∃ publish topic_alias, first = .Publish publish ∧ (topic_alias = none ∨ topic_alias = publish.properties.topic_alias) ∧
    again = .Publish { publish with
      dup := true, properties := { publish.properties with topic_alias := topic_alias } }

/-- No property is set but perhaps a topic alias. -/
def V5PublishConfig.Plain (config : V5PublishConfig) : Prop := config = { topic_alias := config.topic_alias }

instance (config : V5PublishConfig) : Decidable config.Plain := inferInstanceAs (Decidable (_ = _))

/-- A handler whose packets have the shapes that the protocol asks for. -/
class LawfulHandler (H : Type) (P E : outParam Type) [MqttProtocolHandler H P E] where
  shape : P → Shape
  /-- The packet is a retransmission of the first one. -/
  Repeats : P → P → Prop
  connect : ∀ (h : H) id user pass alive clean packet,
    MqttProtocolHandler.create_connect_packet h id user pass alive clean = .ok packet → shape packet = .connect clean
  connect_with_will : ∀ (h : H) id user pass alive clean topic message qos retain packet,
    MqttProtocolHandler.create_connect_with_will_packet h id user pass alive clean topic message qos retain =
      .ok packet → shape packet = .connect clean
  publish : ∀ (h : H) topic qos retain payload pid dup packet,
    MqttProtocolHandler.create_publish_packet h topic qos retain payload pid dup = .ok packet →
      ∃ qp, qos_pid qos pid = .ok qp ∧ shape packet = .publish ⟨dup, qp, retain, topic, payload⟩
  publish_repeats : ∀ (h h' : H) topic qos retain payload pid first again,
    MqttProtocolHandler.create_publish_packet h topic qos retain payload (some pid) false = .ok first →
    MqttProtocolHandler.create_publish_packet h' topic qos retain payload (some pid) true = .ok again →
      Repeats first again
  publish_ok : ∀ (h : H) topic qos retain payload pid dup qp, qos_pid qos pid = .ok qp →
    ∃ packet, MqttProtocolHandler.create_publish_packet h topic qos retain payload pid dup = .ok packet
  subscribe : ∀ (h : H) subscriptions pid packet,
    MqttProtocolHandler.create_subscribe_packet h subscriptions pid = .ok packet →
      shape packet = .subscribe pid subscriptions
  unsubscribe : ∀ (h : H) topics pid packet,
    MqttProtocolHandler.create_unsubscribe_packet h topics pid = .ok packet → shape packet = .unsubscribe pid topics
  puback : ∀ (h : H) pid, ∃ packet,
    MqttProtocolHandler.create_puback_packet h pid = .ok packet ∧ shape packet = .puback pid
  pubrec : ∀ (h : H) pid, ∃ packet,
    MqttProtocolHandler.create_pubrec_packet h pid = .ok packet ∧ shape packet = .pubrec pid
  pubrel : ∀ (h : H) pid, ∃ packet,
    MqttProtocolHandler.create_pubrel_packet h pid = .ok packet ∧ shape packet = .pubrel pid
  pubcomp : ∀ (h : H) pid, ∃ packet,
    MqttProtocolHandler.create_pubcomp_packet h pid = .ok packet ∧ shape packet = .pubcomp pid
  pingreq : ∀ h : H, shape (MqttProtocolHandler.create_pingreq_packet h) = .pingreq
  disconnect : ∀ h : H, shape (MqttProtocolHandler.create_disconnect_packet h) = .disconnect
  handle : ∀ (h : H) packet action, (shape packet).action = some action →
    MqttProtocolHandler.handle_packet h packet = .ok action
  handled : ∀ (h : H) packet action, MqttProtocolHandler.handle_packet h packet = .ok action →
    action ≠ .None → (shape packet).action = some action

/-- A packet that is made from an identifier has the shape that the packets so made have. -/
theorem lawful_shape {H P E : Type} [MqttProtocolHandler H P E] [LawfulHandler H P E] {create : H → Pid → Except E P}
    {shaped : Pid → Shape}
    (lawful : ∀ h pid, ∃ packet, create h pid = .ok packet ∧ LawfulHandler.shape (H := H) packet = shaped pid) {h : H}
    {pid : Pid} {packet : P} (created : create h pid = .ok packet) : LawfulHandler.shape (H := H) packet = shaped pid := by
  obtain ⟨packet', created', same⟩ := lawful h pid
  cases created.symm.trans created'
  exact same

theorem qos_pid_level {qos : QoS} {pid : Option Pid} {qp : QosPid} (same : qos_pid qos pid = .ok qp) :
    qp.qos = qos ∧ qp.pid = pid := by
  cases qos <;> cases pid <;> simp_all [qos_pid] <;> subst same <;> simp [QosPid.qos, QosPid.pid]

instance [Codec V3.Packet MqttProtoError] : LawfulHandler V3Handler V3.Packet MqttProtoError where
  shape := V3.Packet.shape
  Repeats := V3.Packet.Repeats
  connect _ _ _ _ _ _ _ created := by cases created; rfl
  connect_with_will _ _ _ _ _ _ _ _ _ _ _ created := by cases created; rfl
  publish _ _ qos _ _ pid _ _ created := by
    simp only [MqttProtocolHandler.create_publish_packet, V3Handler.create_publish_packet] at created
    cases level : qos_pid qos pid with
    | error err => rw [level] at created; cases created
    | ok qp => rw [level] at created; cases created; exact ⟨qp, rfl, rfl⟩
  publish_repeats _ _ _ qos _ _ pid _ _ first again := by
    simp only [MqttProtocolHandler.create_publish_packet, V3Handler.create_publish_packet] at first again
    cases level : qos_pid qos (some pid) with
    | error err => rw [level] at first; cases first
    | ok qp => rw [level] at first again; cases first; cases again; exact ⟨_, rfl, rfl⟩
  publish_ok _ _ _ _ _ _ _ qp level :=
    ⟨_, by simp only [MqttProtocolHandler.create_publish_packet, V3Handler.create_publish_packet, level]; rfl⟩
  subscribe _ subscriptions _ _ created := by
    cases subscriptions <;> cases created; rfl
  unsubscribe _ topics _ _ created := by
    cases topics <;> cases created; rfl
  puback _ _ := ⟨_, rfl, rfl⟩
  pubrec _ _ := ⟨_, rfl, rfl⟩
  pubrel _ _ := ⟨_, rfl, rfl⟩
  pubcomp _ _ := ⟨_, rfl, rfl⟩
  pingreq _ := rfl
  disconnect _ := rfl
  handle _ packet _ asked := by
    cases packet <;> cases asked <;> rfl
  handled _ packet _ handled _ := by
    cases packet <;> cases handled <;> rfl

instance [Codec V5.Packet ErrorV5] : LawfulHandler V5Handler V5.Packet ErrorV5 where
  shape := V5.Packet.shape
  Repeats := V5.Packet.Repeats
  connect _ _ _ _ _ _ _ created := by cases created; rfl
  connect_with_will _ _ _ _ _ _ _ _ _ _ _ created := by cases created; rfl
  publish _ _ qos _ _ pid _ _ created := by
    simp only [MqttProtocolHandler.create_publish_packet, V5Handler.create_publish_packet] at created
    cases level : qos_pid qos pid with
    | error err => rw [level] at created; cases created
    | ok qp => rw [level] at created; cases created; exact ⟨qp, rfl, rfl⟩
  publish_repeats _ _ _ qos _ _ pid _ _ first again := by
    simp only [MqttProtocolHandler.create_publish_packet, V5Handler.create_publish_packet] at first again
    cases level : qos_pid qos (some pid) with
    | error err => rw [level] at first; cases first
    | ok qp => rw [level] at first again; cases first; cases again; exact ⟨_, none, rfl, .inl rfl, rfl⟩
  publish_ok _ _ _ _ _ _ _ qp level :=
    ⟨_, by simp only [MqttProtocolHandler.create_publish_packet, V5Handler.create_publish_packet, level]; rfl⟩
  subscribe _ subscriptions _ _ created := by
    cases subscriptions with
    | nil => cases created
    | cons first rest => cases created; simp [V5.Packet.shape, Function.comp_def]
  unsubscribe _ topics _ _ created := by
    cases topics <;> cases created; rfl
  puback _ _ := ⟨_, rfl, rfl⟩
  pubrec _ _ := ⟨_, rfl, rfl⟩
  pubrel _ _ := ⟨_, rfl, rfl⟩
  pubcomp _ _ := ⟨_, rfl, rfl⟩
  pingreq _ := rfl
  disconnect _ := rfl
  handle _ packet _ asked := by
    cases packet <;> cases asked <;> rfl
  handled _ packet _ handled some := by
    cases packet <;> cases handled <;> first | rfl | exact absurd rfl some

end Masaka
