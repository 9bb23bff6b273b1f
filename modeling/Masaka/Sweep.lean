import Masaka.Calls

/-!
What holds of everything that a client does. A property that sequences of
computations have, and that holds of the few things the operations are made of,
holds of the operations: first those that leave the connection as it is
(`Sweep.calm`), then all of them (`FullSweep.perform`). What was logged and what will
be read is not looked at by any of them but by the read itself.
-/
namespace Masaka
open Effect MqttProtocolHandler MqttProtocolEngine
open MqttClient (engine engineSession)

section
variable {H P E : Type} (read : MqttProtocolEngine H P E → Nat → Read P E) (log : MqttProtocolEngine H P E → List (Event P))

/-- The engine with another log and other packets to come. -/
def veil (e : MqttProtocolEngine H P E) : MqttProtocolEngine H P E :=
  { e with world := { e.world with read := read e }, log := log e }
def veil_session (s : MqttProtocolEngine H P E × InMemorySession) : MqttProtocolEngine H P E × InMemorySession :=
  (veil read log s.1, s.2)
def veil_client (c : MqttClient H P E) : MqttClient H P E := { c with protocol_engine := veil read log c.protocol_engine }

/-- Properties of computations on the three states, which hold of what the operations
    that leave the connection as it is are made of. -/
structure Sweep (F : (α : Type) → EngineM H P E α → Prop) (S : (α : Type) → SessionM H P E α → Prop)
    (C : (α : Type) → ClientM H P E α → Prop) : Prop where
  ofE : Compositional (veil read log) F
  ofS : Compositional (veil_session read log) S
  ofC : Compositional (veil_client read log) C
  inEngine : ∀ {α : Type} {m : EngineM H P E α}, F α m → S α (zoom first m)
  ofEngine : ∀ {α : Type} {m : EngineM H P E α}, F α m → C α (zoom engine m)
  ofSession : ∀ {α : Type} {m : SessionM H P E α}, S α m → C α (zoom engineSession m)
  write : ∀ bytes, F Nat (write bytes)
  flush : F Unit flush
  clock : F Nat current_timestamp_ms
  sent_time : ∀ time, F PUnit (modify (update_last_sent_time time))
  dequeued : ∀ frames, F PUnit (modify fun e => { e with write_queue := frames })
  queued : ∀ frame, F PUnit (modify fun e => record (.queued frame) { e with write_queue := e.write_queue ++ [frame] })
  sent : ∀ frame, F PUnit (modify (record (.sent frame)))
  handed_out : ∀ pid, F PUnit (modify (record (.handed_out pid)))
  accepted : ∀ pid, F PUnit (modify (record (.accepted pid)))
  handler : ∀ f : H → H, F PUnit (modify fun e => { e with handler := f e.handler })
  onSession : ∀ {α : Type} (f : InMemorySession → α × InMemorySession), S α (onSession f)
  counting : C PUnit (modify fun c => { c with state := c.state.record_message_sent })
  adding : ∀ message, C PUnit (modify fun c => { c with state := c.state.add_received_message message })
  removing : ∀ topic_filter, C Unit (MqttClient.remove_local_subscription topic_filter)
  popping : C (Option ReceivedMessage) MqttClient.next_message

end

namespace Sweep
variable {H P E α : Type} {read : MqttProtocolEngine H P E → Nat → Read P E}
  {log : MqttProtocolEngine H P E → List (Event P)} {F : (α : Type) → EngineM H P E α → Prop}
  {S : (α : Type) → SessionM H P E α → Prop} {C : (α : Type) → ClientM H P E α → Prop} (w : Sweep read log F S C)
include w

/-! ### Sending -/

theorem write_all (bytes : Bytes) (taken : Nat) : F Unit (write_all bytes taken) := by
  induction bytes generalizing taken with
  | nil => exact w.ofE.pure _
  | cons byte rest ih =>
    cases taken with
    | succ taken => exact ih taken
    | zero => exact w.ofE.bind (w.write _) fun n => either (w.ofE.fail _) (ih (n - 1))

theorem write_frames (frames : List (Frame P)) : F Unit (write_frames frames) := by
  induction frames with
  | nil => exact w.ofE.pure _
  | cons frame rest ih =>
    refine w.ofE.bind (w.dequeued rest) fun _ => w.ofE.bind (w.write_all frame.bytes 0) fun _ => ?_
    exact w.ofE.bind (w.sent frame) fun _ => ih

theorem flush_write_queue : F Unit (flush_write_queue : EngineM H P E Unit) :=
  w.ofE.get_bind (fun _ => rfl) fun _ => w.ofE.bind (w.write_frames _) fun _ => w.flush

/-! ### The session -/

theorem trySession (f : InMemorySession → Except MqttError α × InMemorySession) : S α (trySession f) :=
  w.ofS.bind (w.onSession f) fun _ => w.ofS.ofExcept _ _
theorem next_pid : S Pid next_pid :=
  w.ofS.bind (w.onSession _) fun pid => w.ofS.bind (w.inEngine (w.handed_out pid)) fun _ => w.ofS.pure _
theorem publish_pid (qos : QoS) : S (Option Pid) (publish_pid qos) := by
  cases qos with
  | Level0 => exact w.ofS.pure _
  | Level1 | Level2 => exact w.ofS.bind w.next_pid fun _ => w.ofS.pure _
theorem store_pending (pid : Option Pid) (topic : TopicName) (qos : QoS) (retain : Bool) (payload : Bytes) :
    S Unit (store_pending pid topic qos retain payload) := by
  cases pid with
  | none => exact w.ofS.pure _
  | some pid =>
    refine w.ofS.bind (w.inEngine w.clock) fun time => w.ofS.bind (w.trySession _) fun _ => ?_
    exact w.inEngine (w.accepted pid)

theorem trySession_client (f : InMemorySession → Except MqttError α × InMemorySession) : C α (MqttClient.trySession f) :=
  w.ofSession (w.trySession f)
theorem whenConnected {request : ClientM H P E Unit} (holds : C Unit request) : C Unit (MqttClient.whenConnected request) :=
  w.ofC.get_bind (fun _ => rfl) fun _ => either (w.ofC.fail _) holds
theorem add_subscriptions (pid : Pid) (subscriptions : List (TopicFilter × QoS)) :
    C Unit (MqttClient.add_subscriptions pid subscriptions) :=
  w.ofC.forM (fun _ => w.trySession_client _) _
theorem remove_local_subscriptions (topic_filters : List TopicFilter) :
    C Unit (MqttClient.remove_local_subscriptions topic_filters) :=
  w.ofC.forM w.removing _

theorem handle_packet_action (action : PacketAction) :
    C (Option ClientEvent) (MqttClient.handle_packet_action action) := by
  cases action with
  | PublishReceived topic qos retain payload pid =>
    exact w.ofC.bind (w.ofEngine w.clock) fun time => w.ofC.bind (w.adding _) fun _ => w.ofC.pure _
  | SubscribeAck pid codes => exact w.ofC.bind (w.trySession_client _) fun _ => w.ofC.pure _
  | _ => exact w.ofC.pure _

/-! ### What the operations send -/

variable [MqttProtocolHandler H P E]

theorem send_packet (packet : P) : F Unit (send_packet (H := H) packet) := by
  refine w.ofE.get_bind (fun _ => rfl) fun e => w.ofE.bind_ofExcept fun bytes => ?_
  refine w.ofE.bind (w.queued ⟨packet, bytes⟩) fun _ => w.ofE.bind w.flush_write_queue fun _ => ?_
  exact w.ofE.bind w.clock fun time => w.sent_time time

theorem engine_ping : F Unit (MqttProtocolEngine.ping : EngineM H P E Unit) :=
  w.ofE.get_bind (fun _ => rfl) fun _ => either (w.ofE.fail _) (w.send_packet _)

/-- A request that takes an identifier and is sent. -/
theorem requesting (create : Pid → Except E P) : S Pid (MqttProtocolEngine.next_pid >>= fun pid =>
    ofExcept (into H) (create pid) >>= fun packet => zoom first (MqttProtocolEngine.send_packet packet) >>= fun _ => pure pid) :=
  w.ofS.bind w.next_pid fun _ => w.ofS.bind_ofExcept fun packet =>
    w.ofS.bind (w.inEngine (w.send_packet packet)) fun _ => w.ofS.pure _

theorem publish (topic : TopicName) (qos : QoS) (retain : Bool) (payload : Bytes) :
    S (Option Pid) (publish topic qos retain payload) := by
  refine w.ofS.get_bind (fun _ => rfl) fun s => either (w.ofS.fail _) (w.ofS.bind (w.publish_pid qos) fun pid => ?_)
  refine w.ofS.bind_ofExcept fun packet => w.ofS.bind (w.store_pending pid topic qos retain payload) fun _ => ?_
  exact w.ofS.bind (w.inEngine (w.send_packet packet)) fun _ => w.ofS.pure _
theorem subscribe (subscriptions : List (TopicFilter × QoS)) : S Pid (subscribe subscriptions) :=
  w.ofS.get_bind (fun _ => rfl) fun _ => either (w.ofS.fail _) (w.requesting _)
theorem unsubscribe (topics : List TopicFilter) : S Pid (unsubscribe topics) :=
  w.ofS.get_bind (fun _ => rfl) fun _ => either (w.ofS.fail _) (w.requesting _)

/-- A reply that goes out. -/
theorem replying (create : H → Except E P) : S Unit (get >>= fun s => ofExcept (into H) (create s.1.handler) >>=
    fun packet => zoom first (MqttProtocolEngine.send_packet packet)) :=
  w.ofS.get_bind (fun _ => rfl) fun _ => w.ofS.bind_ofExcept fun packet => w.inEngine (w.send_packet packet)

theorem acknowledge (action : PacketAction) : S Unit (acknowledge action) := by
  cases action with
  | PublishAck pid => exact w.ofS.bind (w.onSession _) fun _ => w.ofS.pure _
  | PublishComplete pid => exact w.ofS.bind (w.onSession _) fun _ => w.ofS.bind (w.onSession _) fun _ => w.ofS.pure _
  | PublishRec pid =>
    refine w.ofS.bind (w.onSession _) fun found => ?_
    cases found with
    | none => exact w.ofS.pure _
    | some message =>
      refine w.ofS.get_bind (fun _ => rfl) fun _ => w.ofS.bind_ofExcept fun packet => ?_
      exact w.ofS.bind (w.inEngine (w.send_packet packet)) fun _ => w.trySession _
  | PublishRelease pid => exact w.replying fun h => create_pubcomp_packet h pid
  | PublishReceived topic qos retain payload pid =>
    cases pid with
    | none => cases qos <;> exact w.ofS.pure _
    | some pid =>
      cases qos with
      | Level0 => exact w.ofS.pure _
      | Level1 => exact w.replying fun h => create_puback_packet h pid
      | Level2 => exact w.replying fun h => create_pubrec_packet h pid
  | ConnectAck _ _ | SubscribeAck _ _ | UnsubscribeAck _ | PingResponse | None => exact w.ofS.pure _

theorem retry_publish (current_time : Nat) (pid : Pid) : S Unit (retry_publish current_time pid) := by
  refine w.ofS.get_bind (fun _ => rfl) fun s => ?_
  dsimp only
  cases SessionState.get_outgoing_publish_mut pid s.2 with
  | none => exact w.ofS.pure _
  | some found =>
    exact w.ofS.bind (w.onSession _) fun _ => w.ofS.bind_ofExcept fun packet => w.inEngine (w.send_packet packet)

theorem retry_pubrel (current_time : Nat) (pid : Pid) : S Unit (retry_pubrel current_time pid) :=
  w.ofS.get_bind (fun _ => rfl) fun _ => w.ofS.bind_ofExcept fun packet =>
    either (w.inEngine (w.send_packet packet)) (w.ofS.pure _)

theorem handle_retries (current_time : Nat) : S Unit (handle_retries current_time) := by
  refine w.ofS.get_bind (fun _ => rfl) fun s => ?_
  refine w.ofS.bind (w.ofS.forM (fun pid => w.ofS.bind (w.onSession _) fun _ => w.ofS.pure _) _) fun _ => ?_
  refine w.ofS.bind (w.ofS.forM (w.retry_publish current_time) _) fun _ => ?_
  exact w.ofS.get_bind (fun _ => rfl) fun s => w.ofS.forM (w.retry_pubrel current_time) _

theorem ping : C Unit (MqttClient.ping : ClientM H P E Unit) := w.whenConnected (w.ofEngine w.engine_ping)

theorem resend_pending_messages : C Unit (MqttClient.resend_pending_messages : ClientM H P E Unit) := by
  refine w.ofC.get_bind (fun _ => rfl) fun c => w.ofC.forM (fun entry => ?_) _
  refine w.ofC.get_bind (fun _ => rfl) fun c => ?_
  exact w.ofC.bind_ofExcept fun packet => w.ofEngine (w.send_packet packet)

end Sweep

/-! ### The public operations -/

section
variable {read : MqttProtocolEngine V5Handler V5.Packet ErrorV5 → Nat → Read V5.Packet ErrorV5}
  {log : MqttProtocolEngine V5Handler V5.Packet ErrorV5 → List (Event V5.Packet)}
  {F : (α : Type) → EngineM V5Handler V5.Packet ErrorV5 α → Prop}
  {S : (α : Type) → SessionM V5Handler V5.Packet ErrorV5 α → Prop}
  {C : (α : Type) → ClientM V5Handler V5.Packet ErrorV5 α → Prop} [Codec V5.Packet ErrorV5] (w : Sweep read log F S C)
include w

theorem Sweep.publish_v5 (topic : TopicName) (payload : Bytes) (config : PublishConfig) (v5_config : V5PublishConfig) :
    C Unit (MqttClient.publish_v5 topic payload config v5_config) := by
  refine w.whenConnected (w.ofC.get_bind (fun _ => rfl) fun c => either (w.ofC.fail _) ?_)
  refine w.ofC.bind (w.ofSession (w.publish_pid _)) fun pid => ?_
  refine w.ofC.bind (w.ofEngine (w.handler fun _ => _)) fun _ => w.ofC.bind_ofExcept fun packet => ?_
  refine w.ofC.bind (w.ofSession (w.store_pending pid topic config.qos config.retain payload)) fun _ => ?_
  exact w.ofC.bind (w.ofEngine (w.send_packet packet)) fun _ => w.counting

theorem Sweep.subscribe_v5 (subscriptions : List (TopicFilter × QoS)) (v5_config : V5SubscribeConfig) :
    C Unit (MqttClient.subscribe_v5 subscriptions v5_config) := by
  refine w.whenConnected (either (w.ofC.pure _) (w.ofC.bind (w.ofSession w.next_pid) fun pid => ?_))
  refine w.ofC.bind_ofExcept fun packet => w.ofC.bind (w.ofEngine (w.send_packet packet)) fun _ => ?_
  exact w.add_subscriptions pid subscriptions

end

section
variable [Codec V3.Packet MqttProtoError] [Codec V5.Packet ErrorV5] {v : Version}
  {read : MqttProtocolEngine v.Handler v.Packet v.Error → Nat → Read v.Packet v.Error}
  {log : MqttProtocolEngine v.Handler v.Packet v.Error → List (Event v.Packet)}
  {F : (α : Type) → EngineM v.Handler v.Packet v.Error α → Prop}
  {S : (α : Type) → SessionM v.Handler v.Packet v.Error α → Prop}
  {C : (α : Type) → ClientM v.Handler v.Packet v.Error α → Prop}

/-- An operation that neither connects nor disconnects nor polls. -/
theorem Sweep.calm (w : Sweep read log F S C) (op : Op v) (other : op ≠ .connect ∧ op ≠ .reconnect ∧ op ≠ .disconnect ∧
    op ≠ .poll) : C Reply op.perform := by
  cases op with
  | connect => exact absurd rfl other.1
  | reconnect => exact absurd rfl other.2.1
  | disconnect => exact absurd rfl other.2.2.1
  | poll => exact absurd rfl other.2.2.2
  | publish topic payload config =>
    refine w.ofC.bind (w.whenConnected (w.ofC.get_bind (fun _ => rfl) fun c => either (w.ofC.fail _) ?_))
      fun _ => w.ofC.pure _
    exact w.ofC.bind (w.ofSession (w.publish topic config.qos config.retain payload)) fun _ => w.counting
  | subscribe topic_filter qos =>
    refine w.ofC.bind (w.whenConnected ?_) fun _ => w.ofC.pure _
    exact w.ofC.bind (w.ofSession (w.subscribe _)) fun _ => w.trySession_client _
  | subscribe_multiple subscriptions =>
    refine w.ofC.bind (w.whenConnected (either (w.ofC.pure _) ?_)) fun _ => w.ofC.pure _
    exact w.ofC.bind (w.ofSession (w.subscribe _)) fun pid => w.add_subscriptions pid subscriptions
  | unsubscribe topic_filter =>
    refine w.ofC.bind (w.whenConnected ?_) fun _ => w.ofC.pure _
    exact w.ofC.bind (w.ofSession (w.unsubscribe _)) fun _ => w.removing topic_filter
  | unsubscribe_multiple topic_filters =>
    refine w.ofC.bind (w.whenConnected (either (w.ofC.pure _) ?_)) fun _ => w.ofC.pure _
    exact w.ofC.bind (w.ofSession (w.unsubscribe _)) fun _ => w.remove_local_subscriptions topic_filters
  | ping => exact w.ofC.bind w.ping fun _ => w.ofC.pure _
  | next_message => exact w.ofC.bind w.popping fun _ => w.ofC.pure _
  | publish_v5 topic payload config v5_config => exact w.ofC.bind (w.publish_v5 _ _ _ _) fun _ => w.ofC.pure _
  | subscribe_v5 subscriptions v5_config => exact w.ofC.bind (w.subscribe_v5 _ _) fun _ => w.ofC.pure _
  | set_v5_config config =>
    exact w.ofC.bind (w.ofEngine (w.handler fun h => { h with connect_config := config })) fun _ => w.ofC.pure _

end

/-! ### Connecting, disconnecting and polling -/

section
variable {H P E : Type} [MqttProtocolHandler H P E] (read : MqttProtocolEngine H P E → Nat → Read P E)
  (log : MqttProtocolEngine H P E → List (Event P))

/-- The properties hold of what all the operations are made of. -/
structure FullSweep (F : (α : Type) → EngineM H P E α → Prop) (S : (α : Type) → SessionM H P E α → Prop)
    (C : (α : Type) → ClientM H P E α → Prop) : Prop extends Sweep read log F S C where
  delay : ∀ ms, F Unit (delay ms)
  close : F Unit close
  receive : F PacketAction receive_packet_unlogged
  interval : ∀ keep_alive, F PUnit (modify (set_keep_alive_interval keep_alive))
  link : ∀ connected, F PUnit (modify fun e => { e with connected := connected })
  cleared : C Unit MqttClient.clear_session
  entering : ∀ state, C Unit (MqttClient.set_connection_state state)
  attempts : ∀ f : UInt32 → UInt32 × UInt32, C PUnit (modify fun c =>
    { c with reconnect_attempt := (f c.reconnect_attempt).1, reconnect_interval_ms := (f c.reconnect_attempt).2 })

end

namespace FullSweep
variable {H P E : Type} [MqttProtocolHandler H P E] {read : MqttProtocolEngine H P E → Nat → Read P E}
  {log : MqttProtocolEngine H P E → List (Event P)} {F : (α : Type) → EngineM H P E α → Prop}
  {S : (α : Type) → SessionM H P E α → Prop} {C : (α : Type) → ClientM H P E α → Prop} (w : FullSweep read log F S C)
include w

theorem connect_with_will (id : String) (user : Option String) (pass : Option Bytes) (alive : UInt16) (clean : Bool)
    (topic : Option TopicName) (message : Option Bytes) (qos : Option QoS) (retain : Bool) :
    F PacketAction (connect_with_will id user pass alive clean topic message qos retain) := by
  refine w.ofE.get_bind (fun _ => rfl) fun e => either (w.ofE.fail _) (w.ofE.bind (w.interval alive) fun _ => ?_)
  refine w.ofE.bind_ofExcept fun packet => w.ofE.bind (w.send_packet packet) fun _ => w.ofE.bind w.receive fun action => ?_
  cases action with
  | ConnectAck session_present return_code =>
    exact either (w.ofE.bind (w.link true) fun _ => w.ofE.pure _) (w.ofE.fail _)
  | _ => exact w.ofE.fail _

theorem connect : C Unit MqttClient.connect := by
  refine w.ofC.get_bind (fun _ => rfl) fun c => w.ofC.bind_ofExcept fun _ => w.ofC.bind (w.entering _) fun _ => ?_
  refine w.ofC.bind (w.ofC.onlyIf w.cleared) fun _ => ?_
  refine w.ofC.bind (w.ofC.attempt (w.ofEngine (w.connect_with_will _ _ _ _ _ _ _ _ _))) fun result => ?_
  have failing : ∀ err, C Unit (do MqttClient.set_connection_state .Error; fail err : ClientM H P E Unit) := fun err =>
    w.ofC.bind (w.entering _) fun _ => w.ofC.fail err
  rcases result with err | action
  · exact failing err
  cases action with
  | ConnectAck session_present return_code =>
    refine either (w.ofC.bind (w.entering _) fun _ => ?_) (failing _)
    exact w.ofC.bind (w.attempts fun _ => (0, 0)) fun _ => w.ofC.onlyIf w.resend_pending_messages
  | _ => exact failing _

theorem reconnect : C Unit MqttClient.reconnect := by
  refine w.ofC.get_bind (fun _ => rfl) fun c => either (w.ofC.fail _) (either (w.ofC.fail _) ?_)
  refine w.ofC.bind (w.attempts fun attempt => (attempt + 1, _)) fun _ => ?_
  exact w.ofC.bind (w.ofEngine (w.delay _)) fun _ => w.connect

theorem disconnect : C Unit MqttClient.disconnect := by
  have closing : F Unit (MqttProtocolEngine.disconnect : EngineM H P E Unit) := by
    refine w.ofE.get_bind (fun _ => rfl) fun e => either (w.ofE.pure _) (w.ofE.bind (w.send_packet _) fun _ => ?_)
    exact w.ofE.bind (w.link false) fun _ => w.close
  refine w.ofC.get_bind (fun _ => rfl) fun c => either (w.ofC.pure _) (w.ofC.bind (w.entering _) fun _ => ?_)
  refine w.ofC.bind (w.ofC.attempt (w.ofEngine closing)) fun _ => ?_
  exact w.ofC.bind (w.entering _) fun _ => w.ofC.ofExcept _ _

theorem receive_packet : S PacketAction receive_packet :=
  w.ofS.bind (w.inEngine w.receive) fun action => w.ofS.bind (w.acknowledge action) fun _ => w.ofS.pure _

theorem poll_connected : C (Option ClientEvent) MqttClient.poll_connected := by
  refine w.ofC.bind (w.ofEngine w.clock) fun time => w.ofC.get_bind (fun _ => rfl) fun c => ?_
  refine either (w.ofC.bind (w.entering _) fun _ => w.ofC.fail _) (w.ofC.bind (w.ofC.onlyIf w.ping) fun _ => ?_)
  refine w.ofC.bind (w.ofSession (w.handle_retries time)) fun _ => ?_
  refine w.ofC.bind (w.ofC.attempt (w.ofSession w.receive_packet)) fun result => ?_
  rcases result with err | action
  · exact w.ofC.bind (w.entering _) fun _ => w.ofC.fail _
  · exact w.handle_packet_action action

theorem poll : C (Option ClientEvent) MqttClient.poll := by
  have down : C (Option ClientEvent) (do
      MqttClient.set_connection_state .Disconnected; return some .Disconnected : ClientM H P E (Option ClientEvent)) :=
    w.ofC.bind (w.entering _) fun _ => w.ofC.pure _
  refine w.ofC.get_bind (fun _ => rfl) fun c => either (either ?_ ?_) w.poll_connected
  · refine w.ofC.bind (w.ofC.attempt w.reconnect) fun result => ?_
    cases result with
    | error err => exact down
    | ok _ => exact w.poll_connected
  · exact either down (w.ofC.pure _)

end FullSweep

/-- All operations. -/
theorem FullSweep.perform [Codec V3.Packet MqttProtoError] [Codec V5.Packet ErrorV5] {v : Version}
    {read : MqttProtocolEngine v.Handler v.Packet v.Error → Nat → Read v.Packet v.Error}
    {log : MqttProtocolEngine v.Handler v.Packet v.Error → List (Event v.Packet)}
    {F : (α : Type) → EngineM v.Handler v.Packet v.Error α → Prop}
    {S : (α : Type) → SessionM v.Handler v.Packet v.Error α → Prop}
    {C : (α : Type) → ClientM v.Handler v.Packet v.Error α → Prop} (w : FullSweep read log F S C) (op : Op v) :
    C Reply op.perform := by
  cases op with
  | connect => exact w.ofC.bind w.connect fun _ => w.ofC.pure _
  | reconnect => exact w.ofC.bind w.reconnect fun _ => w.ofC.pure _
  | disconnect => exact w.ofC.bind w.disconnect fun _ => w.ofC.pure _
  | poll => exact w.ofC.bind w.poll fun _ => w.ofC.pure _
  | _ => exact w.calm _ (by simp)

end Masaka
