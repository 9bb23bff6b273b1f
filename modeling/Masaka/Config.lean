import Masaka.Packets

/-!
The errors of the client and its configuration, with the checks made on the latter.
-/
namespace Masaka

inductive ConfigError where
  | InvalidClientId (msg : String)
  | InvalidWillMessage (msg : String)
  | InvalidLimit (msg : String)
  | InvalidTimeout (msg : String)
  | ReconnectDisabled
  deriving DecidableEq

inductive TransportError where
  | ConnectionFailed
  | ConnectionLost
  | TlsHandshakeFailed
  | Timeout
  | Io (msg : String)
  | DnsResolutionFailed
  | CertificateValidationFailed
  | NetworkUnreachable
  | ConnectionRefused
  | Other (msg : String)
  deriving DecidableEq

/-- Errors of `mqtt_proto` are kept as they are, not as the text they render to. -/
inductive ProtocolError where
  | InvalidPacket (err : MqttProtoError)
  | InvalidHeader
  | InvalidPacketId
  | V5Specific (err : ErrorV5)
  deriving DecidableEq

inductive MqttError where
  | Config (err : ConfigError)
  | Transport (err : TransportError)
  | Protocol (err : ProtocolError)
  | InvalidState
  | NotConnected
  | AuthenticationFailed
  | SubscriptionFailed
  | PublishFailed
  | FlowControl
  | Timeout
  | Internal
  deriving DecidableEq

structure WillMessage where
  topic : TopicName
  payload : Bytes
  qos : QoS
  retain : Bool
  deriving DecidableEq

/-- The fields of `PublishConfig` that publishing reads. -/
structure PublishConfig where
  qos : QoS
  retain : Bool
  deriving DecidableEq

/-- Automatic reconnect; the multiplier is the exact number that the `f32` stands for. -/
structure ReconnectConfig where
  enabled : Bool := true
  max_attempts : UInt32 := 0
  initial_interval_ms : UInt32 := 1000
  max_interval_ms : UInt32 := 60000
  backoff_multiplier : ℚ := 2
  deriving DecidableEq

structure ClientConfig where
  client_id : String := "masaka_client"
  username : Option String := none
  password : Option Bytes := none
  keep_alive : UInt16 := 60
  clean_session : Bool := true
  will_message : Option WillMessage := none
  reconnect : ReconnectConfig := {}
  /-- `transport.connect_timeout_ms`. -/
  transport_connect_timeout_ms : UInt32 := 30000
  max_subscriptions : Nat := 32
  max_inflight_messages : Nat := 64
  max_packet_size : UInt32 := 268435456
  deriving DecidableEq

/-- `ClientConfig::validate`; `len()` counts bytes. -/
def ClientConfig.validate (config : ClientConfig) : Except ConfigError Unit :=
  if config.client_id.utf8ByteSize = 0 then
    .error (.InvalidClientId "Client ID cannot be empty")
  else if config.client_id.utf8ByteSize > 23 then
    .error (.InvalidClientId "MQTT v3.1.1 client ID cannot exceed 23 characters")
  else if config.will_message.any (fun will => will.payload.length > config.max_packet_size.toNat) then
    .error (.InvalidWillMessage "Will message payload exceeds maximum packet size")
  else if config.max_subscriptions = 0 then
    .error (.InvalidLimit "Maximum subscriptions must be > 0")
  else if config.max_inflight_messages = 0 then
    .error (.InvalidLimit "Maximum in-flight messages must be > 0")
  else if config.transport_connect_timeout_ms = 0 then
    .error (.InvalidTimeout "Connection timeout must be > 0")
  else .ok ()

/-- What a version 5.0 CONNECT carries beside the common fields. -/
structure V5ConnectConfig where
  session_expiry_interval : Option UInt32 := none
  receive_maximum : Option UInt16 := none
  maximum_packet_size : Option UInt32 := none
  topic_alias_maximum : Option UInt16 := none
  request_response_information : Option Bool := none
  request_problem_information : Option Bool := none
  authentication_method : Option String := none
  authentication_data : Option Bytes := none
  user_properties : List V5.UserProperty := []
  deriving DecidableEq

structure V5PublishConfig where
  payload_format_indicator : Option Bool := none
  message_expiry_interval : Option UInt32 := none
  topic_alias : Option UInt16 := none
  response_topic : Option TopicName := none
  correlation_data : Option Bytes := none
  subscription_identifiers : List UInt32 := []
  content_type : Option String := none
  user_properties : List V5.UserProperty := []
  deriving DecidableEq

structure V5SubscribeConfig where
  subscription_identifier : Option UInt32 := none
  user_properties : List V5.UserProperty := []
  deriving DecidableEq

example : ({} : ClientConfig).validate = .ok () := by decide

end Masaka
