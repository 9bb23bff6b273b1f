import Mathlib

/-!
The packets that `mqtt_proto` defines for the two protocol versions, with the
fields that the handlers write and read, and its errors.
-/
namespace Masaka

/-- Packet identifiers: 16 bits, never zero. -/
structure Pid where
  value : Nat
  pos : 0 < value
  bound : value < 65536
  deriving DecidableEq

namespace Pid

theorem ext_value {p q : Pid} (same : p.value = q.value) : p = q := by
  cases p; cases q; cases same; rfl

/-- `Pid::default()`. -/
def default : Pid := ⟨1, by decide, by decide⟩

/-- `pid += 1`: after 65535 comes 1. -/
def next (pid : Pid) : Pid :=
  if h : pid.value + 1 < 65536 then ⟨pid.value + 1, by omega, h⟩ else default

theorem next_value (pid : Pid) : pid.next.value = pid.value % 65535 + 1 := by
  have := pid.pos; have := pid.bound
  unfold next
  split
  · simp only []; omega
  · simp only [default]; omega

theorem next_ne (pid : Pid) : pid.next ≠ pid := fun same => by
  have value := next_value pid
  have := pid.pos; have := pid.bound
  rw [same] at value
  omega

end Pid

inductive QoS where
  | Level0
  | Level1
  | Level2
  deriving DecidableEq, Repr

/-- A QoS level with the identifier that the levels above 0 carry. -/
inductive QosPid where
  | Level0
  | Level1 (pid : Pid)
  | Level2 (pid : Pid)
  deriving DecidableEq

/-- The identifier of a PUBLISH. -/
def QosPid.pid : QosPid → Option Pid
  | .Level0 => none
  | .Level1 pid => some pid
  | .Level2 pid => some pid

/-- The level of a PUBLISH. -/
def QosPid.qos : QosPid → QoS
  | .Level0 => .Level0
  | .Level1 _ => .Level1
  | .Level2 _ => .Level2

abbrev TopicName := String
abbrev TopicFilter := String
/-- Payloads, and the bytes of encoded packets. -/
abbrev Bytes := List UInt8
abbrev VarBytes := Bytes

/-- `mqtt_proto::Error`, with the variants that this repository names. -/
inductive MqttProtoError where
  | ZeroPid
  | EmptySubscription
  | InvalidHeader
  | Other (message : String)
  deriving DecidableEq

/-- `mqtt_proto::v5::ErrorV5`. -/
inductive ErrorV5 where
  | Common (err : MqttProtoError)
  | Other (message : String)
  deriving DecidableEq

inductive Protocol where
  | V311
  | V500
  deriving DecidableEq

/-! ### Version 3.1.1 -/

namespace V3

structure LastWill where
  topic_name : TopicName
  message : Bytes
  qos : QoS
  retain : Bool
  deriving DecidableEq

structure Connect where
  protocol : Protocol
  keep_alive : UInt16
  client_id : String
  clean_session : Bool
  last_will : Option LastWill
  username : Option String
  password : Option Bytes
  deriving DecidableEq

structure Connack where
  session_present : Bool
  code : UInt8
  deriving DecidableEq

structure Publish where
  dup : Bool
  qos_pid : QosPid
  retain : Bool
  topic_name : TopicName
  payload : Bytes
  deriving DecidableEq

structure Subscribe where
  pid : Pid
  topics : List (TopicFilter × QoS)
  deriving DecidableEq

/-- The return codes of a SUBACK are its `topics`. -/
structure Suback where
  pid : Pid
  topics : List UInt8
  deriving DecidableEq

structure Unsubscribe where
  pid : Pid
  topics : List TopicFilter
  deriving DecidableEq

inductive Packet where
  | Connect (connect : V3.Connect)
  | Connack (connack : V3.Connack)
  | Publish (publish : V3.Publish)
  | Puback (pid : Pid)
  | Pubrec (pid : Pid)
  | Pubrel (pid : Pid)
  | Pubcomp (pid : Pid)
  | Subscribe (subscribe : V3.Subscribe)
  | Suback (suback : V3.Suback)
  | Unsubscribe (unsubscribe : V3.Unsubscribe)
  | Unsuback (pid : Pid)
  | Pingreq
  | Pingresp
  | Disconnect
  deriving DecidableEq

end V3

/-! ### Version 5.0: reason codes stand for their `as u8` values -/

namespace V5

structure UserProperty where
  name : String
  value : String
  deriving DecidableEq

structure LastWill where
  qos : QoS
  retain : Bool
  topic_name : TopicName
  payload : Bytes
  deriving DecidableEq

structure ConnectProperties where
  session_expiry_interval : Option UInt32
  receive_max : Option UInt16
  max_packet_size : Option UInt32
  topic_alias_max : Option UInt16
  request_response_info : Option Bool
  request_problem_info : Option Bool
  auth_method : Option String
  auth_data : Option Bytes
  user_properties : List UserProperty
  deriving DecidableEq

structure Connect where
  protocol : Protocol
  clean_start : Bool
  keep_alive : UInt16
  client_id : String
  last_will : Option LastWill
  username : Option String
  password : Option Bytes
  properties : ConnectProperties
  deriving DecidableEq

/-- The limits that a broker announces. -/
structure ConnackProperties where
  receive_max : Option UInt16 := none
  max_qos : Option QoS := none
  retain_available : Option Bool := none
  topic_alias_max : Option UInt16 := none
  server_keep_alive : Option UInt16 := none
  deriving DecidableEq

structure Connack where
  session_present : Bool
  reason_code : UInt8
  properties : ConnackProperties := {}
  deriving DecidableEq

structure PublishProperties where
  payload_is_utf8 : Option Bool := none
  message_expiry_interval : Option UInt32 := none
  topic_alias : Option UInt16 := none
  response_topic : Option TopicName := none
  correlation_data : Option Bytes := none
  subscription_ids : List UInt32 := []
  content_type : Option String := none
  user_properties : List UserProperty := []
  deriving DecidableEq

structure Publish where
  dup : Bool
  qos_pid : QosPid
  retain : Bool
  topic_name : TopicName
  payload : Bytes
  properties : PublishProperties
  deriving DecidableEq

/-- PUBACK, PUBREC, PUBREL and PUBCOMP. -/
structure Ack where
  pid : Pid
  reason_code : UInt8
  deriving DecidableEq

/-- `SubscriptionOptions::new(qos)`: of the other options it sets only `retain_as_published`. -/
structure SubscriptionOptions where
  max_qos : QoS
  deriving DecidableEq

structure SubscribeProperties where
  subscription_id : Option UInt32 := none
  user_properties : List UserProperty := []
  deriving DecidableEq

structure Subscribe where
  pid : Pid
  topics : List (TopicFilter × SubscriptionOptions)
  properties : SubscribeProperties
  deriving DecidableEq

/-- SUBACK and UNSUBACK, whose reason codes are their `topics`. -/
structure TopicAck where
  pid : Pid
  topics : List UInt8
  deriving DecidableEq

structure Unsubscribe where
  pid : Pid
  topics : List TopicFilter
  deriving DecidableEq

inductive Packet where
  | Connect (connect : V5.Connect)
  | Connack (connack : V5.Connack)
  | Publish (publish : V5.Publish)
  | Puback (ack : Ack)
  | Pubrec (ack : Ack)
  | Pubrel (ack : Ack)
  | Pubcomp (ack : Ack)
  | Subscribe (subscribe : V5.Subscribe)
  | Suback (suback : TopicAck)
  | Unsubscribe (unsubscribe : V5.Unsubscribe)
  | Unsuback (unsuback : TopicAck)
  | Pingreq
  | Pingresp
  | Disconnect (reason_code : UInt8)
  | Auth (reason_code : UInt8)
  deriving DecidableEq

end V5

/-- What a received packet asks the client to do. -/
inductive PacketAction where
  | ConnectAck (session_present : Bool) (return_code : UInt8)
  | PublishAck (pid : Pid)
  | PublishRec (pid : Pid)
  | PublishRelease (pid : Pid)
  | PublishComplete (pid : Pid)
  | PublishReceived (topic : TopicName) (qos : QoS) (retain : Bool) (payload : Bytes) (pid : Option Pid)
  | SubscribeAck (pid : Pid) (return_codes : List UInt8)
  | UnsubscribeAck (pid : Pid)
  | PingResponse
  | None
  deriving DecidableEq

end Masaka
