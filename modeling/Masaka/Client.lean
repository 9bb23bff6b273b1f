import Masaka.Engine
import Masaka.ClientState

/-!
The client: connecting with resume and reconnect, publishing, subscribing,
polling, and the additional operations of version 5.0.
-/
namespace Masaka
open Effect Tables

inductive ClientEvent where
  | Connected
  | Disconnected
  | MessageReceived (message : ReceivedMessage)
  | MessageAcknowledged (pid : Pid)
  | SubscriptionConfirmed (pid : Pid)
  | UnsubscriptionConfirmed (pid : Pid)
  | PingResponse
  | Error (message : String)
  deriving DecidableEq

structure MqttClient (H P E : Type) where
  config : ClientConfig
  protocol_engine : MqttProtocolEngine H P E
  state : ClientState
  session_state : InMemorySession
  reconnect_attempt : UInt32
  reconnect_interval_ms : UInt32

variable {H P E α : Type}

abbrev ClientM (H P E α : Type) := Eff MqttError (MqttClient H P E) α

namespace MqttClient

/-- `MqttClient::with_session_state` with an in-memory session of the configured capacity. -/
def new (world : World P E) (protocol_handler : H) (config : ClientConfig) : MqttClient H P E where
  config := config
  protocol_engine := .new world protocol_handler
  state := .new config.max_inflight_messages
  session_state := .new config.max_subscriptions
  reconnect_attempt := 0
  reconnect_interval_ms := 0

def engine : Lens (MqttClient H P E) (MqttProtocolEngine H P E) where
  get c := c.protocol_engine
  set e c := { c with protocol_engine := e }
  get_set _ _ := rfl
  set_get _ := rfl
  set_set _ _ _ := rfl

def engineSession : Lens (MqttClient H P E) (MqttProtocolEngine H P E × InMemorySession) where
  get c := (c.protocol_engine, c.session_state)
  set s c := { c with protocol_engine := s.1, session_state := s.2 }
  get_set _ _ := rfl
  set_get _ := rfl
  set_set _ _ _ := rfl

@[simp] theorem engine_get (c : MqttClient H P E) : engine.get c = c.protocol_engine := rfl
@[simp] theorem engine_set (e : MqttProtocolEngine H P E) (c : MqttClient H P E) :
    engine.set e c = { c with protocol_engine := e } := rfl
@[simp] theorem engineSession_get (c : MqttClient H P E) :
    engineSession.get c = (c.protocol_engine, c.session_state) := rfl
@[simp] theorem engineSession_set (s : MqttProtocolEngine H P E × InMemorySession) (c : MqttClient H P E) :
    engineSession.set s c = { c with protocol_engine := s.1, session_state := s.2 } := rfl

def set_connection_state (new : ConnectionState) : ClientM H P E Unit :=
  modify fun c => { c with state := c.state.set_connection_state new }

/-- A fallible operation of the session. -/
def trySession (f : InMemorySession → Except MqttError α × InMemorySession) : ClientM H P E α :=
  zoom engineSession (MqttProtocolEngine.trySession f)

/-- `session_state.clear`, with a note in the log. -/
def clear_session : ClientM H P E Unit := modify fun c => { c with
  session_state := SessionState.clear c.session_state
  protocol_engine := MqttProtocolEngine.record .cleared c.protocol_engine }

def reset_reconnect_state : ClientM H P E Unit :=
  modify fun c => { c with reconnect_attempt := 0, reconnect_interval_ms := 0 }

/-- The reconnect interval after the first: truncated to 32 bits, which saturates, and at most the maximum. -/
def next_interval (config : ReconnectConfig) (interval : UInt32) : UInt32 :=
  if interval = 0 then config.initial_interval_ms
  else min (UInt32.ofNat (min (interval.toNat * config.backoff_multiplier).floor.toNat (2 ^ 32 - 1)))
    config.max_interval_ms

variable [MqttProtocolHandler H P E]
open MqttProtocolHandler

/-! ### Connecting -/

/-- The body of the loop of `resend_pending_messages`. -/
def resend (entry : Pid × InflightMessage) : ClientM H P E Unit := do
  let c ← get
  let packet ← ofExcept (into H) (create_publish_packet c.protocol_engine.handler entry.2.topic entry.2.qos
    entry.2.retain entry.2.payload (some entry.1) true)
  zoom engine (MqttProtocolEngine.send_packet packet)

def resend_pending_messages : ClientM H P E Unit := do
  let c ← get
  let to_resend := SessionState.pending_outgoing_publishes c.protocol_engine.world.order c.session_state
  to_resend.forM resend

def connect : ClientM H P E Unit := do
  let c ← get
  ofExcept MqttError.Config c.config.validate
  set_connection_state .Connecting
  onlyIf c.config.clean_session clear_session
  let will := c.config.will_message
  let result ← attempt (zoom engine (MqttProtocolEngine.connect_with_will c.config.client_id c.config.username
    c.config.password c.config.keep_alive c.config.clean_session (will.map (·.topic)) (will.map (·.payload))
    (will.map (·.qos)) ((will.map (·.retain)).getD false)))
  match result with
  | .ok (.ConnectAck session_present return_code) =>
    if return_code = 0 then
      set_connection_state .Connected
      reset_reconnect_state
      onlyIf (session_present && !c.config.clean_session) resend_pending_messages
    else
      set_connection_state .Error
      fail .AuthenticationFailed
  | .error err =>
    set_connection_state .Error
    fail err
  | .ok _ =>
    set_connection_state .Error
    fail (.Protocol .InvalidHeader)

def reconnect : ClientM H P E Unit := do
  let c ← get
  if !c.config.reconnect.enabled then fail (.Config .ReconnectDisabled)
  else if c.config.reconnect.max_attempts > 0 && c.reconnect_attempt ≥ c.config.reconnect.max_attempts then
    fail .Internal
  else
    let interval := next_interval c.config.reconnect c.reconnect_interval_ms
    modify fun c => { c with reconnect_attempt := c.reconnect_attempt + 1, reconnect_interval_ms := interval }
    zoom engine (MqttProtocolEngine.delay interval)
    connect

/-- A disconnected client has nothing to do. -/
def disconnect : ClientM H P E Unit := do
  let c ← get
  if c.state.connection_state = .Disconnected then return ()
  else
    set_connection_state .Disconnecting
    let result ← attempt (zoom engine MqttProtocolEngine.disconnect)
    set_connection_state .Disconnected
    ofExcept id result

/-! ### Publishing and subscribing -/

/-- The check that every request makes first. -/
def whenConnected (request : ClientM H P E Unit) : ClientM H P E Unit := do
  let c ← get
  if c.state.connection_state ≠ .Connected then fail .InvalidState
  else request

/-- The flow control check of both publish operations. -/
def inflight_limit_reached (c : MqttClient H P E) : Bool :=
  (SessionState.pending_outgoing_publishes c.protocol_engine.world.order c.session_state).length ≥
    c.config.max_inflight_messages

def publish (topic : TopicName) (payload : Bytes) (config : PublishConfig) : ClientM H P E Unit := whenConnected do
  let c ← get
  if c.inflight_limit_reached then fail .PublishFailed
  else
    let _pid ← zoom engineSession (MqttProtocolEngine.publish topic config.qos config.retain payload)
    modify fun c => { c with state := c.state.record_message_sent }

def publish_text (topic : TopicName) (text : String) (config : PublishConfig) : ClientM H P E Unit :=
  publish topic text.toUTF8.toList config

/-- One record for each filter of a request, all under its identifier. -/
def add_subscriptions (pid : Pid) (subscriptions : List (TopicFilter × QoS)) : ClientM H P E Unit :=
  subscriptions.forM fun (topic_filter, qos) => trySession (SessionState.add_subscription pid topic_filter qos)

def subscribe (topic_filter : TopicFilter) (qos : QoS) : ClientM H P E Unit := whenConnected do
  let pid ← zoom engineSession (MqttProtocolEngine.subscribe [(topic_filter, qos)])
  trySession (SessionState.add_subscription pid topic_filter qos)

def subscribe_multiple (subscriptions : List (TopicFilter × QoS)) : ClientM H P E Unit := whenConnected do
  if subscriptions.isEmpty then return ()
  else
    let pid ← zoom engineSession (MqttProtocolEngine.subscribe subscriptions)
    add_subscriptions pid subscriptions

def remove_local_subscription (topic_filter : TopicFilter) : ClientM H P E Unit := modify fun c =>
  { c with session_state :=
      (SessionState.remove_subscription c.protocol_engine.world.order topic_filter c.session_state).2 }

def remove_local_subscriptions (topic_filters : List TopicFilter) : ClientM H P E Unit :=
  topic_filters.forM remove_local_subscription

def unsubscribe (topic_filter : TopicFilter) : ClientM H P E Unit := whenConnected do
  let _pid ← zoom engineSession (MqttProtocolEngine.unsubscribe [topic_filter])
  remove_local_subscription topic_filter

def unsubscribe_multiple (topic_filters : List TopicFilter) : ClientM H P E Unit := whenConnected do
  if topic_filters.isEmpty then return ()
  else
    let _pid ← zoom engineSession (MqttProtocolEngine.unsubscribe topic_filters)
    remove_local_subscriptions topic_filters

def ping : ClientM H P E Unit := whenConnected (zoom engine MqttProtocolEngine.ping)

/-! ### Polling -/

def handle_packet_action : PacketAction → ClientM H P E (Option ClientEvent)
  | .PublishReceived topic qos retain payload pid => do
    let timestamp ← zoom engine MqttProtocolEngine.current_timestamp_ms
    let message : ReceivedMessage := {
      topic := topic, qos := qos, retain := retain, payload := payload, packet_id := pid, timestamp := timestamp }
    modify fun c => { c with state := c.state.add_received_message message }
    return some (.MessageReceived message)
  | .SubscribeAck pid return_codes => do
    trySession (SessionState.confirm_subscription pid return_codes)
    return some (.SubscriptionConfirmed pid)
  | .UnsubscribeAck pid => return some (.UnsubscriptionConfirmed pid)
  | .PingResponse => return some .PingResponse
  | .PublishAck pid => return some (.MessageAcknowledged pid)
  | .PublishComplete pid => return some (.MessageAcknowledged pid)
  | _ => return none

/-- The last part of `poll`: waiting for a packet and processing it. -/
def receive : ClientM H P E (Option ClientEvent) := do
  match ← attempt (zoom engineSession MqttProtocolEngine.receive_packet) with
  | .ok action => handle_packet_action action
  | .error err =>
    set_connection_state .Error
    fail err

/-- `poll` once the engine is connected. -/
def poll_connected : ClientM H P E (Option ClientEvent) := do
  let current_time ← zoom engine MqttProtocolEngine.current_timestamp_ms
  let c ← get
  if c.protocol_engine.is_connection_timeout current_time then
    set_connection_state .Error
    fail (.Transport .Timeout)
  else
    onlyIf (c.protocol_engine.should_send_keep_alive current_time) ping
    zoom engineSession (MqttProtocolEngine.handle_retries current_time)
    receive

def poll : ClientM H P E (Option ClientEvent) := do
  let c ← get
  if !c.protocol_engine.is_connected then
    if c.state.connection_state = .Connected && c.config.reconnect.enabled then
      match ← attempt reconnect with
      | .error _ =>
        set_connection_state .Disconnected
        return some .Disconnected
      | .ok () => poll_connected
    else if c.state.connection_state ≠ .Disconnected then
      set_connection_state .Disconnected
      return some .Disconnected
    else return none
  else poll_connected

def next_message : ClientM H P E (Option ReceivedMessage) := ofExec fun c =>
  (.ok c.state.pop_received_message.1, { c with state := c.state.pop_received_message.2 })

end MqttClient

/-! ### Version 5.0 -/

namespace MqttClient
variable [Codec V5.Packet ErrorV5]

def publish_v5 (topic : TopicName) (payload : Bytes) (config : PublishConfig) (v5_config : V5PublishConfig) :
    ClientM V5Handler V5.Packet ErrorV5 Unit := whenConnected do
  let c ← get
  if c.inflight_limit_reached then fail .PublishFailed
  else
    let pid ← zoom engineSession (MqttProtocolEngine.publish_pid config.qos)
    let created := V5Handler.create_publish_with_config topic config.qos config.retain payload pid false v5_config
      c.protocol_engine.handler
    zoom engine (modify fun e => { e with handler := created.2 })
    let packet ← ofExcept (fun err => .Protocol (.V5Specific err)) created.1
    zoom engineSession (MqttProtocolEngine.store_pending pid topic config.qos config.retain payload)
    zoom engine (MqttProtocolEngine.send_packet packet)
    modify fun c => { c with state := c.state.record_message_sent }

def subscribe_v5 (subscriptions : List (TopicFilter × QoS)) (v5_config : V5SubscribeConfig) :
    ClientM V5Handler V5.Packet ErrorV5 Unit := whenConnected do
  if subscriptions.isEmpty then return ()
  else
    let pid ← zoom engineSession MqttProtocolEngine.next_pid
    let packet ← ofExcept (fun err => .Protocol (.V5Specific err))
      (V5Handler.create_subscribe_with_config subscriptions pid v5_config)
    zoom engine (MqttProtocolEngine.send_packet packet)
    add_subscriptions pid subscriptions

def publish_request (request_topic response_topic : TopicName) (payload : Bytes) (config : PublishConfig)
    (correlation_data : Bytes) : ClientM V5Handler V5.Packet ErrorV5 Unit :=
  publish_v5 request_topic payload config
    { response_topic := some response_topic, correlation_data := some correlation_data }

def publish_response (response_topic : TopicName) (payload : Bytes) (config : PublishConfig)
    (correlation_data : Bytes) : ClientM V5Handler V5.Packet ErrorV5 Unit :=
  publish_v5 response_topic payload config { correlation_data := some correlation_data }

/-- `VarByteInt` holds 28 bits. -/
def subscribe_with_id (topic_filter : TopicFilter) (qos : QoS) (subscription_id : UInt32) :
    ClientM V5Handler V5.Packet ErrorV5 Unit :=
  if subscription_id.toNat < 2 ^ 28 then
    subscribe_v5 [(topic_filter, qos)] { subscription_identifier := some subscription_id }
  else fail (.Protocol .InvalidPacketId)

def set_v5_config (config : V5ConnectConfig) : ClientM V5Handler V5.Packet ErrorV5 Unit :=
  zoom engine (modify fun e => { e with handler := { e.handler with connect_config := config } })

end MqttClient

end Masaka
