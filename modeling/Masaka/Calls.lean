import Masaka.Client
import Masaka.Runs

/-!
The clients of the two protocol versions, their public operations, and runs of
them: a list of calls, each in surroundings that behave as they like.
-/
namespace Masaka
open Effect

inductive Version where
  | v3
  | v5
  deriving DecidableEq

namespace Version

abbrev Handler : Version → Type
  | .v3 => V3Handler
  | .v5 => V5Handler

abbrev Packet : Version → Type
  | .v3 => V3.Packet
  | .v5 => V5.Packet

abbrev Error : Version → Type
  | .v3 => MqttProtoError
  | .v5 => ErrorV5

/-- What a new handler is made from. -/
abbrev Setup : Version → Type
  | .v3 => Unit
  | .v5 => V5ConnectConfig

/-- A new handler. -/
def handler : (v : Version) → v.Setup → v.Handler
  | .v3, _ => {}
  | .v5, config => V5Handler.with_config config

variable [Codec V3.Packet MqttProtoError] [Codec V5.Packet ErrorV5]

instance : (v : Version) → MqttProtocolHandler v.Handler v.Packet v.Error
  | .v3 => inferInstanceAs (MqttProtocolHandler V3Handler V3.Packet MqttProtoError)
  | .v5 => inferInstanceAs (MqttProtocolHandler V5Handler V5.Packet ErrorV5)

instance : (v : Version) → LawfulHandler v.Handler v.Packet v.Error
  | .v3 => inferInstanceAs (LawfulHandler V3Handler V3.Packet MqttProtoError)
  | .v5 => inferInstanceAs (LawfulHandler V5Handler V5.Packet ErrorV5)

end Version

/-- A client of the given protocol version. -/
abbrev Client (v : Version) := MqttClient v.Handler v.Packet v.Error

/-- The public operations, except for those that are calls of others. -/
inductive Op : Version → Type where
  | connect {v : Version} : Op v
  | reconnect {v : Version} : Op v
  | disconnect {v : Version} : Op v
  | publish {v : Version} (topic : TopicName) (payload : Bytes) (config : PublishConfig) : Op v
  | subscribe {v : Version} (topic_filter : TopicFilter) (qos : QoS) : Op v
  | subscribe_multiple {v : Version} (subscriptions : List (TopicFilter × QoS)) : Op v
  | unsubscribe {v : Version} (topic_filter : TopicFilter) : Op v
  | unsubscribe_multiple {v : Version} (topic_filters : List TopicFilter) : Op v
  | ping {v : Version} : Op v
  | poll {v : Version} : Op v
  | next_message {v : Version} : Op v
  | publish_v5 (topic : TopicName) (payload : Bytes) (config : PublishConfig) (v5_config : V5PublishConfig) : Op .v5
  | subscribe_v5 (subscriptions : List (TopicFilter × QoS)) (v5_config : V5SubscribeConfig) : Op .v5
  | set_v5_config (config : V5ConnectConfig) : Op .v5

/-- The public operations that are calls of others. -/
inductive Shortcut : Version → Type where
  | publish_text {v : Version} (topic : TopicName) (text : String) (config : PublishConfig) : Shortcut v
  | publish_request (request_topic response_topic : TopicName) (payload : Bytes) (config : PublishConfig)
    (correlation_data : Bytes) : Shortcut .v5
  | publish_response (response_topic : TopicName) (payload : Bytes) (config : PublishConfig)
    (correlation_data : Bytes) : Shortcut .v5
  | subscribe_with_id (topic_filter : TopicFilter) (qos : QoS) (subscription_id : UInt32) : Shortcut .v5

/-- What an operation returns. -/
inductive Reply where
  | unit
  | event (event : Option ClientEvent)
  | message (message : Option ReceivedMessage)
  deriving DecidableEq

/-- A call, with how the surroundings behave during it. -/
structure Call (v : Version) where
  op : Op v
  world : World v.Packet v.Error

/-- Surroundings that take every byte and deliver the given packets, at time zero. -/
def World.obliging {P E : Type} (is_connected : Bool) (packets : List P) : World P E where
  is_connected := is_connected
  write _ := some (.ok 65536)
  flush _ := some (.ok ())
  close _ := some (.ok ())
  read n := (packets[n]?).elim (.waiting []) .packet
  now _ := 0
  delay _ := true
  order := .same Pid

section
variable [Codec V3.Packet MqttProtoError] [Codec V5.Packet ErrorV5] {v : Version}

/-- What an operation runs. -/
def Op.perform : {v : Version} → Op v → ClientM v.Handler v.Packet v.Error Reply
  | _, .connect => do MqttClient.connect; return .unit
  | _, .reconnect => do MqttClient.reconnect; return .unit
  | _, .disconnect => do MqttClient.disconnect; return .unit
  | _, .publish topic payload config => do MqttClient.publish topic payload config; return .unit
  | _, .subscribe topic_filter qos => do MqttClient.subscribe topic_filter qos; return .unit
  | _, .subscribe_multiple subscriptions => do MqttClient.subscribe_multiple subscriptions; return .unit
  | _, .unsubscribe topic_filter => do MqttClient.unsubscribe topic_filter; return .unit
  | _, .unsubscribe_multiple topic_filters => do MqttClient.unsubscribe_multiple topic_filters; return .unit
  | _, .ping => do MqttClient.ping; return .unit
  | _, .poll => do return .event (← MqttClient.poll)
  | _, .next_message => do return .message (← MqttClient.next_message)
  | _, .publish_v5 topic payload config v5_config => do
    MqttClient.publish_v5 topic payload config v5_config; return .unit
  | _, .subscribe_v5 subscriptions v5_config => do MqttClient.subscribe_v5 subscriptions v5_config; return .unit
  | _, .set_v5_config config => do MqttClient.set_v5_config config; return .unit

def Shortcut.perform : {v : Version} → Shortcut v → ClientM v.Handler v.Packet v.Error Unit
  | _, .publish_text topic text config => MqttClient.publish_text topic text config
  | _, .publish_request request_topic response_topic payload config correlation_data =>
    MqttClient.publish_request request_topic response_topic payload config correlation_data
  | _, .publish_response response_topic payload config correlation_data =>
    MqttClient.publish_response response_topic payload config correlation_data
  | _, .subscribe_with_id topic_filter qos subscription_id =>
    MqttClient.subscribe_with_id topic_filter qos subscription_id

/-- The client in other surroundings. -/
def MqttClient.withWorld {H P E : Type} (c : MqttClient H P E) (world : World P E) : MqttClient H P E :=
  { c with protocol_engine := { c.protocol_engine with world := world } }

/-- The outcome of a call, and the client it leaves. -/
def Client.call (c : Client v) (call : Call v) : Except (Halt MqttError) Reply × Client v :=
  exec call.op.perform (c.withWorld call.world)

/-- The client that a call leaves. -/
def Client.after (c : Client v) (call : Call v) : Client v := (c.call call).2

section
variable (c : Client v) (world : World v.Packet v.Error)

theorem Client.after_connect : c.after ⟨.connect, world⟩ = (exec MqttClient.connect (c.withWorld world)).2 :=
  exec_result_state _ _ _
theorem Client.after_reconnect : c.after ⟨.reconnect, world⟩ = (exec MqttClient.reconnect (c.withWorld world)).2 :=
  exec_result_state _ _ _
theorem Client.after_disconnect : c.after ⟨.disconnect, world⟩ = (exec MqttClient.disconnect (c.withWorld world)).2 :=
  exec_result_state _ _ _
theorem Client.after_poll : c.after ⟨.poll, world⟩ = (exec MqttClient.poll (c.withWorld world)).2 :=
  exec_result_state _ _ _

theorem Client.after_publish_text (topic : TopicName) (text : String) (config : PublishConfig) :
    c.after ⟨.publish topic text.toUTF8.toList config, world⟩ =
      (exec (MqttClient.publish_text topic text config) (c.withWorld world)).2 := exec_result_state _ _ _

theorem Client.connect_returns :
    (c.call ⟨.connect, world⟩).1 = (exec MqttClient.connect (c.withWorld world)).1.map fun _ => Reply.unit :=
  exec_result_value _ _ _
theorem Client.disconnect_returns :
    (c.call ⟨.disconnect, world⟩).1 = (exec MqttClient.disconnect (c.withWorld world)).1.map fun _ => Reply.unit :=
  exec_result_value _ _ _
theorem Client.poll_returns :
    (c.call ⟨.poll, world⟩).1 = (exec MqttClient.poll (c.withWorld world)).1.map Reply.event :=
  exec_result_value _ _ _

end

section
variable (c : Client .v5) (world : World V5.Packet ErrorV5)

theorem Client.after_publish_request (request_topic response_topic : TopicName) (payload : Bytes) (config : PublishConfig)
    (correlation_data : Bytes) : c.after ⟨.publish_v5 request_topic payload config
        { response_topic := some response_topic, correlation_data := some correlation_data }, world⟩ =
      (exec (MqttClient.publish_request request_topic response_topic payload config correlation_data)
        (c.withWorld world)).2 := exec_result_state _ _ _
theorem Client.after_publish_response (response_topic : TopicName) (payload : Bytes) (config : PublishConfig)
    (correlation_data : Bytes) : c.after ⟨.publish_v5 response_topic payload config
        { correlation_data := some correlation_data }, world⟩ =
      (exec (MqttClient.publish_response response_topic payload config correlation_data) (c.withWorld world)).2 :=
  exec_result_state _ _ _

/-- An identifier that is too large is refused before anything is done. -/
theorem Client.after_subscribe_with_id (topic_filter : TopicFilter) (qos : QoS) (subscription_id : UInt32) :
    (exec (MqttClient.subscribe_with_id topic_filter qos subscription_id) (c.withWorld world)).2 =
      if subscription_id.toNat < 2 ^ 28 then
        c.after ⟨.subscribe_v5 [(topic_filter, qos)] { subscription_identifier := some subscription_id }, world⟩
      else c.withWorld world := by
  unfold MqttClient.subscribe_with_id
  split
  · exact (exec_result_state _ _ _).symm
  · rfl

end

/-- The client after a list of calls. -/
def Client.run (c : Client v) (calls : List (Call v)) : Client v := Runs.run Client.after c calls

/-- The states between the calls of a new client. -/
def Client.Reachable (c : Client v) : Prop :=
  ∃ world setup config calls, c = Client.run (MqttClient.new world (v.handler setup) config) calls

theorem Client.Reachable.run {c : Client v} (reachable : c.Reachable) (more : List (Call v)) : (c.run more).Reachable := by
  obtain ⟨world, setup, config, calls, rfl⟩ := reachable
  exact ⟨world, setup, config, calls ++ more, (Runs.run_append ..).symm⟩

theorem Client.Reachable.after {c : Client v} (reachable : c.Reachable) (call : Call v) : (c.after call).Reachable :=
  reachable.run [call]

theorem Client.Reachable.of_after {c c' : Client v} (reachable : c.Reachable) {call : Call v} (same : c.after call = c') :
    c'.Reachable := by
  rw [← same]
  exact reachable.after call

/-- What is proved of reachable clients holds after the other operations, too. -/
theorem Client.Reachable.shortcut {c : Client v} (reachable : c.Reachable) (shortcut : Shortcut v)
    (world : World v.Packet v.Error) : Client.Reachable (exec shortcut.perform (c.withWorld world)).2 := by
  cases shortcut with
  | publish_text topic text config =>
    exact reachable.of_after (c.after_publish_text world topic text config)
  | publish_request request_topic response_topic payload config correlation_data =>
    exact reachable.of_after (c.after_publish_request world request_topic response_topic payload config correlation_data)
  | publish_response response_topic payload config correlation_data =>
    exact reachable.of_after (c.after_publish_response world response_topic payload config correlation_data)
  | subscribe_with_id topic_filter qos subscription_id =>
    have same := c.after_subscribe_with_id world topic_filter qos subscription_id
    refine (congrArg Client.Reachable same).mpr ?_
    split
    · exact reachable.after _
    · -- To set the configuration that is set already changes only the surroundings.
      exact reachable.after ⟨.set_v5_config c.protocol_engine.handler.connect_config, world⟩

end

end Masaka
