import Masaka.Closed

/-!
Clients that are connected. Between calls that were not dropped a client is in one of
three states, and a connected client has a connected engine; so no request finds the
engine without a connection.
-/
namespace Masaka.Connected
open Effect Runs MqttProtocolHandler MqttProtocolEngine
open Flags (Connects Steady flags links connect_flags reconnect_flags disconnect_flags poll_flags perform_steady)
open MqttClient (engine engineSession)

/-- The states in which a call that is not dropped leaves a client. -/
def Settled (state : ConnectionState) : Prop := state = .Disconnected ∨ state = .Connected ∨ state = .Error

section
variable {H P E : Type}

theorem connects_settled {c : MqttClient H P E} {r : Except (Halt MqttError) Unit} {after : ConnectionState × Bool}
    (connects : Connects c r after) (settled : Settled c.state.connection_state) (whole : r ≠ .error .cut) :
    Settled after.1 := by
  cases connects with
  | invalid _ => exact settled
  | refused _ _ => exact .inr (.inr rfl)
  | failed _ => exact .inr (.inr rfl)
  | dropped _ => exact absurd rfl whole
  | accepted _ _ => exact .inr (.inl rfl)

end

section
variable [Codec V3.Packet MqttProtoError] [Codec V5.Packet ErrorV5] {v : Version}

/-- A call that is not dropped leaves the client in one of the three states. -/
theorem settled_after {c : Client v} (reachable : c.Reachable) {call : Call v} (whole : (c.call call).1 ≠ .error .cut)
    (settled : Settled c.state.connection_state) : Settled (c.after call).state.connection_state := by
  obtain ⟨op, world⟩ := call
  have idle : (c.withWorld world).Idle := reachable.idle
  by_cases linking : links op = false
  · have steady : Steady (c.withWorld world) (c.after ⟨op, world⟩) := perform_steady linking _
    rw [steady.state]
    exact settled
  revert whole
  change wp op.perform (c.withWorld world) fun r c' => r ≠ .error .cut → Settled (flags c').1
  -- What is done with the result does not make up for a dropped call.
  have uncut : ∀ {α : Type} {f : α → Reply} {r : Except (Halt MqttError) α}, r.map f ≠ .error .cut → r ≠ .error .cut :=
    fun whole cut => whole (map_error cut _)
  cases op with
  | connect =>
    refine wp_result (wp_mono (connect_flags _) fun r c' connects whole => ?_)
    exact connects_settled connects settled (uncut whole)
  | reconnect =>
    refine wp_result (wp_mono (reconnect_flags _) fun r c' ended whole => ?_)
    generalize flags c' = after at ended
    cases ended with
    | refused _ => exact settled
    | dropped => exact settled
    | connects _ connects => exact connects_settled connects settled (uncut whole)
  | disconnect =>
    refine wp_result (wp_mono (disconnect_flags idle) fun r c' ended whole => ?_)
    generalize flags c' = after at ended
    cases ended with
    | nothing _ => exact settled
    | unsent _ _ _ => exact .inl rfl
    | closed _ => exact .inl rfl
    | dropped _ => exact absurd rfl whole
  | poll =>
    have linked := Reconnect.connected_linked reachable
    refine wp_result (wp_mono (poll_flags idle linked) fun r c' ended _ => ?_)
    rcases ended with same | ⟨-, -, same⟩ | ⟨-, -, same⟩
    · rw [same]; exact settled
    · rw [same]; exact .inr (.inr rfl)
    · rw [same]; exact .inl rfl
  | _ => exact absurd rfl linking

end

/-! ### Errors of requests -/

/-- The engine does not miss its connection. -/
def Linked (err : MqttError) : Prop := err ≠ .NotConnected

theorem linked_transport (err : TransportError) : Linked (.Transport err) := fun same => by cases same

section
variable {H P E α β : Type}

theorem raises_linked_trySession {f : InMemorySession → Except MqttError α × InMemorySession}
    (errors : ∀ s err, (f s).1 = .error err → Linked err) : Raises Linked (trySession f : SessionM H P E α) := by
  intro s err failed
  refine errors s.2 err ?_
  rw [trySession, exec_bind] at failed
  simp only [onSession, exec_ofExec] at failed
  cases result : (f s.2).1 with
  | ok a => rw [result] at failed; cases failed
  | error e => rw [result] at failed; cases failed; rfl

theorem raises_linked_add_subscription (pid : Pid) (topic_filter : TopicFilter) (qos : QoS) :
    Raises Linked (trySession (SessionState.add_subscription pid topic_filter qos) : SessionM H P E Unit) := by
  refine raises_linked_trySession fun s err failed => ?_
  unfold SessionState.add_subscription at failed
  split at failed
  · cases failed
    exact fun same => by cases same
  · cases failed

theorem raises_linked_next_pid : Raises Linked (next_pid : SessionM H P E Pid) := fun s err failed => by cases failed

theorem raises_linked_publish_pid (qos : QoS) : Raises Linked (publish_pid qos : SessionM H P E (Option Pid)) := by
  cases qos <;> exact fun s err failed => by cases failed

theorem raises_linked_store_pending (pid : Option Pid) (topic : TopicName) (qos : QoS) (retain : Bool)
    (payload : Bytes) : Raises Linked (store_pending pid topic qos retain payload : SessionM H P E Unit) := by
  cases pid <;> exact fun s err failed => by cases failed

/-- Started from this client the computation raises no such error. -/
def LinkedAt (m : ClientM H P E α) (c : MqttClient H P E) : Prop :=
  wp m c fun r _ => ∀ err, r = .error (.err err) → Linked err

theorem linked_seq {m : ClientM H P E α} {f : α → ClientM H P E β} {c : MqttClient H P E}
    (first : LinkedAt m c) (next : ∀ a, Raises Linked (f a)) : LinkedAt (m >>= f) c := by
  refine wp_seq first (fun a c' _ => next a c') fun h c' failed err same => ?_
  exact failed err (by rw [Except.error.inj same])

theorem linked_whenConnected {request : ClientM H P E Unit} {c : MqttClient H P E}
    (holds : c.state.connection_state = .Connected → LinkedAt request c) : LinkedAt (MqttClient.whenConnected request) c := by
  rw [LinkedAt, MqttClient.whenConnected, wp_bind, wp_get]
  by_cases connected : c.state.connection_state = .Connected
  · simp only [connected, ne_eq, not_true_eq_false, if_false]
    exact holds connected
  · simp only [connected, ne_eq, not_false_eq_true, if_true]
    intro err failed
    cases failed
    exact fun same => by cases same

theorem raises_linked_add_subscriptions (pid : Pid) (subscriptions : List (TopicFilter × QoS)) :
    Raises Linked (MqttClient.add_subscriptions pid subscriptions : ClientM H P E Unit) :=
  Raises.forM (fun _ => (raises_linked_add_subscription pid _ _).zoom engineSession) _

variable [MqttProtocolHandler H P E]

/-- The handler's errors are none of the connection. -/
def Proper (H : Type) {P E : Type} [MqttProtocolHandler H P E] : Prop := ∀ err : E, Linked (into H err)

variable (proper : Proper (E := E) H)
include proper

/-- What a request sends raises no such error. -/
theorem raises_linked_sending (create : Except E P) (pid : α) : Raises Linked (ofExcept (into H) create >>= fun packet =>
    zoom first (send_packet packet) >>= fun _ => pure pid : SessionM H P E α) :=
  (Raises.ofExcept proper create).bind fun packet =>
    ((Sending.raises_send_packet linked_transport proper packet).zoom first).bind fun _ => Raises.pure _

theorem linked_publish {c : MqttClient H P E} (flag : c.protocol_engine.connected = true) (topic : TopicName) (qos : QoS)
    (retain : Bool) (payload : Bytes) : LinkedAt (zoom engineSession (publish topic qos retain payload)) c := by
  rw [LinkedAt, wp_zoom, publish, wp_bind, wp_get]
  simp only [MqttClient.engineSession_get, flag, Bool.not_true, Bool.false_eq_true, if_false]
  refine ((raises_linked_publish_pid qos).bind fun pid => (Raises.ofExcept proper _).bind fun packet => ?_) _
  refine (raises_linked_store_pending pid topic qos retain payload).bind fun _ => ?_
  exact ((Sending.raises_send_packet linked_transport proper packet).zoom first).bind fun _ => Raises.pure _
theorem linked_subscribe {c : MqttClient H P E} (flag : c.protocol_engine.connected = true)
    (subscriptions : List (TopicFilter × QoS)) : LinkedAt (zoom engineSession (subscribe subscriptions)) c := by
  rw [LinkedAt, wp_zoom, subscribe, wp_bind, wp_get]
  simp only [MqttClient.engineSession_get, flag, Bool.not_true, Bool.false_eq_true, if_false]
  exact (raises_linked_next_pid.bind fun pid => raises_linked_sending proper _ pid) _
theorem linked_unsubscribe {c : MqttClient H P E} (flag : c.protocol_engine.connected = true)
    (topics : List TopicFilter) : LinkedAt (zoom engineSession (unsubscribe topics)) c := by
  rw [LinkedAt, wp_zoom, unsubscribe, wp_bind, wp_get]
  simp only [MqttClient.engineSession_get, flag, Bool.not_true, Bool.false_eq_true, if_false]
  exact (raises_linked_next_pid.bind fun pid => raises_linked_sending proper _ pid) _
theorem linked_ping {c : MqttClient H P E} (flag : c.protocol_engine.connected = true) : LinkedAt (zoom engine ping) c := by
  rw [LinkedAt, wp_zoom, ping, wp_bind, wp_get]
  simp only [MqttClient.engine_get, flag, Bool.not_true, Bool.false_eq_true, if_false]
  exact Sending.raises_send_packet linked_transport proper _ _

end

section
variable [Codec V5.Packet ErrorV5] {v : Version}

theorem publish_v5_linked (topic : TopicName) (payload : Bytes) (config : PublishConfig) (v5_config : V5PublishConfig)
    (c : Client .v5) : LinkedAt (MqttClient.publish_v5 topic payload config v5_config) c := by
  have proper : Proper V5Handler := fun err same => by cases same
  refine linked_whenConnected fun _ => Raises.bind Raises.get (fun c => Raises.ite (Raises.fail ?_) ?_) c
  · exact fun same => by cases same
  refine ((raises_linked_publish_pid _).zoom engineSession).bind fun pid => ((Raises.modify _).zoom engine).bind fun _ => ?_
  refine (Raises.ofExcept proper _).bind fun packet => ?_
  refine ((raises_linked_store_pending pid topic config.qos config.retain payload).zoom engineSession).bind fun _ => ?_
  exact ((Sending.raises_send_packet linked_transport proper packet).zoom engine).bind fun _ => Raises.modify _

theorem subscribe_v5_linked (subscriptions : List (TopicFilter × QoS)) (v5_config : V5SubscribeConfig)
    (c : Client .v5) : LinkedAt (MqttClient.subscribe_v5 subscriptions v5_config) c := by
  have proper : Proper V5Handler := fun err same => by cases same
  refine linked_whenConnected fun _ => Raises.ite (Raises.pure _) ?_ c
  refine (raises_linked_next_pid.zoom engineSession).bind fun pid => (Raises.ofExcept proper _).bind fun packet => ?_
  refine ((Sending.raises_send_packet linked_transport proper packet).zoom engine).bind fun _ => ?_
  exact raises_linked_add_subscriptions pid subscriptions

/-- The requests that only a connected client makes. -/
def requests : Op v → Bool
  | .publish _ _ _ | .subscribe _ _ | .subscribe_multiple _ | .unsubscribe _ | .unsubscribe_multiple _ | .ping
  | .publish_v5 _ _ _ _ | .subscribe_v5 _ _ => true
  | _ => false

variable [Codec V3.Packet MqttProtoError]

theorem handler_proper : Proper (E := v.Error) v.Handler := by
  cases v <;> exact fun err same => by cases same

/-- A request does not miss the connection, if a connected client has a connected engine. -/
theorem request_linked {op : Op v} (request : requests op = true) {c : Client v}
    (linked : c.state.connection_state = .Connected → c.protocol_engine.connected = true) : LinkedAt op.perform c := by
  have result : ∀ {m : ClientM v.Handler v.Packet v.Error Unit}, LinkedAt m c →
      LinkedAt (m >>= fun _ => pure Reply.unit) c := fun holds => linked_seq holds fun _ => Raises.pure _
  cases op with
  | publish topic payload config =>
    refine result (linked_whenConnected fun connected => ?_)
    rw [LinkedAt, wp_bind, wp_get]
    by_cases full : c.inflight_limit_reached = true
    · simp only [full, if_true]
      intro err failed
      cases failed
      exact fun same => by cases same
    · simp only [full]
      exact linked_seq (linked_publish handler_proper (linked connected) _ _ _ _) fun _ => Raises.modify _
  | subscribe topic_filter qos =>
    refine result (linked_whenConnected fun connected => ?_)
    refine linked_seq (linked_subscribe handler_proper (linked connected) _) fun pid => ?_
    exact (raises_linked_add_subscription pid topic_filter qos).zoom engineSession
  | subscribe_multiple subscriptions =>
    refine result (linked_whenConnected fun connected => ?_)
    cases subscriptions with
    | nil => exact fun err failed => by cases failed
    | cons entry rest =>
      exact linked_seq (linked_subscribe handler_proper (linked connected) _) fun pid => raises_linked_add_subscriptions pid _
  | unsubscribe topic_filter =>
    refine result (linked_whenConnected fun connected => ?_)
    refine linked_seq (linked_unsubscribe handler_proper (linked connected) _) fun _ => ?_
    exact Raises.modify _
  | unsubscribe_multiple topic_filters =>
    refine result (linked_whenConnected fun connected => ?_)
    cases topic_filters with
    | nil => exact fun err failed => by cases failed
    | cons topic_filter rest =>
      refine linked_seq (linked_unsubscribe handler_proper (linked connected) _) fun _ => ?_
      exact Raises.forM (fun _ => Raises.modify _) _
  | ping => exact result (linked_whenConnected fun connected => linked_ping handler_proper (linked connected))
  | publish_v5 topic payload config v5_config => exact result (publish_v5_linked topic payload config v5_config c)
  | subscribe_v5 subscriptions v5_config => exact result (subscribe_v5_linked subscriptions v5_config c)
  | _ => cases request

/-- In every run of calls that are not dropped a client is in one of three states after
    each, a connected client has a connected engine, and no request misses the connection. -/
theorem connected_means_connected (world : World v.Packet v.Error) (setup : v.Setup) (config : ClientConfig)
    {calls : List (Call v)} (whole : Along Client.after (fun c call => (c.call call).1 ≠ .error .cut)
      (MqttClient.new world (v.handler setup) config) calls) :
    let c := Client.run (MqttClient.new world (v.handler setup) config) calls
    (c.state.connection_state = .Disconnected ∨ c.state.connection_state = .Connected ∨
      c.state.connection_state = .Error) ∧
    (c.state.connection_state = .Connected → c.protocol_engine.connected = true) ∧
    ∀ call, requests call.op = true → (c.call call).1 ≠ .error (.err .NotConnected) := by
  intro c
  obtain ⟨reachable, settled⟩ : c.Reachable ∧ Settled c.state.connection_state := by
    refine Runs.invariant (I := fun c : Client v => c.Reachable ∧ Settled c.state.connection_state)
      (fun c call holds whole => ?_) ⟨⟨world, setup, config, [], rfl⟩, .inl rfl⟩ whole
    exact ⟨holds.1.after call, settled_after holds.1 whole holds.2⟩
  have linked := Reconnect.connected_linked reachable
  refine ⟨settled, linked, fun call request missing => ?_⟩
  exact request_linked request (c := c.withWorld call.world) linked .NotConnected missing rfl

end

section
local instance : Codec V3.Packet MqttProtoError := Wire.v3Codec
local instance : Codec V5.Packet ErrorV5 := Wire.v5Codec

theorem connected_means_connected_connect : let c := Client.run Closed.new_client [Closed.connecting]
    (c.state.connection_state = .Disconnected ∨ c.state.connection_state = .Connected ∨
      c.state.connection_state = .Error) ∧
    (c.state.connection_state = .Connected → c.protocol_engine.connected = true) ∧
    ∀ call, requests call.op = true → (c.call call).1 ≠ .error (.err .NotConnected) := by
  exact connected_means_connected (v := .v3) _ () {} ⟨by decide, trivial⟩

end

end Masaka.Connected
