import Masaka.Reconnect

/-!
What a publish makes of the session: a message of a level above 0 is stored under
the next identifier, and its packet sent after that. The other requests leave the
tables of the handshakes alone.
-/
namespace Masaka.Publishing
open Effect MqttProtocolHandler LawfulHandler MqttProtocolEngine Sending
open MqttClient (engine engineSession)
open SessionState (handshakes)

section
variable {H P E α β : Type}

/-! ### Requests that store no message -/

/-- A SUBSCRIBE or an UNSUBSCRIBE. -/
def Asks : Shape → Prop
  | .subscribe _ _ | .unsubscribe _ _ => True
  | _ => False

theorem whenConnected {R : MqttClient H P E → MqttClient H P E → Prop} [Std.Refl R] [IsTrans (MqttClient H P E) R]
    {request : ClientM H P E Unit} (moves : Moves R request) : Moves R (MqttClient.whenConnected request) :=
  Moves.get.bind fun _ => Moves.ite (fun _ => Moves.fail _) fun _ => moves

section
variable [MqttProtocolHandler H P E] [LawfulHandler H P E]

/-- A relation between states that the steps of subscribing and unsubscribing stay in. -/
structure Requests (R : MqttClient H P E → MqttClient H P E → Prop) : Prop where
  taking : Moves R (zoom engineSession next_pid)
  sending : ∀ packet, Asks (shape (H := H) packet) → Moves R (zoom engine (send_packet packet))
  adding : ∀ pid topic_filter qos, Moves R (MqttClient.trySession (SessionState.add_subscription pid topic_filter qos))
  removing : ∀ topic_filter, Moves R (MqttClient.remove_local_subscription topic_filter)

namespace Requests
variable {R : MqttClient H P E → MqttClient H P E → Prop} [Std.Refl R] [IsTrans (MqttClient H P E) R] (w : Requests R)
include w

theorem add_subscriptions (pid : Pid) (subscriptions : List (TopicFilter × QoS)) :
    Moves R (MqttClient.add_subscriptions pid subscriptions) := Moves.forM (fun _ => w.adding pid _ _) _

/-- A request that takes an identifier and is sent. -/
theorem request {create : Pid → Except E P} {rest : Pid → ClientM H P E α} {into_error : E → MqttError}
    (asks : ∀ pid packet, create pid = .ok packet → Asks (shape (H := H) packet)) (next : ∀ pid, Moves R (rest pid)) :
    Moves R (zoom engineSession MqttProtocolEngine.next_pid >>= fun pid =>
      ofExcept into_error (create pid) >>= fun packet => zoom engine (send_packet packet) >>= fun _ => rest pid) :=
  w.taking.bind fun pid => Moves.bind_ofExcept fun packet created =>
    (w.sending packet (asks pid packet created)).bind fun _ => next pid

theorem subscribe (subscriptions : List (TopicFilter × QoS)) {rest : Pid → ClientM H P E α}
    (next : ∀ pid, Moves R (rest pid)) : Moves R (zoom engineSession (subscribe subscriptions) >>= rest) := by
  simp only [MqttProtocolEngine.subscribe, zoom_bind, zoom_get, zoom_ite, zoom_fail, zoom_ofExcept,
    Operations.zoom_first, zoom_pure, bind_assoc, pure_bind]
  refine Moves.get.bind fun c => ?_
  split
  · exact (Moves.fail _).bind fun pid => next pid
  · simp only [bind_assoc, pure_bind]
    refine w.request (fun pid packet created => ?_) next
    rw [LawfulHandler.subscribe _ _ _ _ created]
    trivial

theorem unsubscribe (topic_filters : List TopicFilter) {rest : Pid → ClientM H P E α}
    (next : ∀ pid, Moves R (rest pid)) : Moves R (zoom engineSession (unsubscribe topic_filters) >>= rest) := by
  simp only [MqttProtocolEngine.unsubscribe, zoom_bind, zoom_get, zoom_ite, zoom_fail, zoom_ofExcept,
    Operations.zoom_first, zoom_pure, bind_assoc, pure_bind]
  refine Moves.get.bind fun c => ?_
  split
  · exact (Moves.fail _).bind fun pid => next pid
  · simp only [bind_assoc, pure_bind]
    refine w.request (fun pid packet created => ?_) next
    rw [LawfulHandler.unsubscribe _ _ _ _ created]
    trivial

end Requests
end

/-- The tables of the handshakes are as before. -/
def Undisturbed (c c' : MqttClient H P E) : Prop := handshakes c'.session_state = handshakes c.session_state

instance : Std.Refl (Undisturbed (H := H) (P := P) (E := E)) := ⟨fun _ => rfl⟩
instance : IsTrans (MqttClient H P E) Undisturbed := ⟨fun _ _ _ first second => second.trans first⟩

theorem inEngine (m : EngineM H P E α) : Moves Undisturbed (zoom engine m) := fun _ => rfl
theorem modifying {f : MqttClient H P E → MqttClient H P E}
    (same : ∀ c, handshakes (f c).session_state = handshakes c.session_state) :
    Moves Undisturbed (modify f : ClientM H P E PUnit) := same

theorem undisturbed_requests [MqttProtocolHandler H P E] [LawfulHandler H P E] :
    Requests (Undisturbed (H := H) (P := P) (E := E)) where
  taking _ := rfl
  sending _ _ := inEngine _
  adding pid topic_filter qos c := by
    rw [Operations.exec_trySession]
    exact SessionState.handshakes_untouched (SessionState.add_subscription_untouched ..)
  removing _ := modifying fun _ => SessionState.handshakes_untouched (SessionState.remove_subscription_untouched ..)

variable [MqttProtocolHandler H P E]

/-- A publish of level 0. -/
theorem publish_level0 (topic : TopicName) (retain : Bool) (payload : Bytes) :
    Moves Undisturbed (zoom engineSession (publish topic .Level0 retain payload) : ClientM H P E (Option Pid)) := by
  simp only [MqttProtocolEngine.publish, publish_pid, store_pending, zoom_bind, zoom_get, zoom_ite, zoom_fail,
    zoom_ofExcept, Operations.zoom_first, zoom_pure, bind_assoc, pure_bind]
  refine Moves.get.bind fun c => Moves.ite (fun _ => Moves.fail _) fun _ => Moves.bind_ofExcept fun _ _ => ?_
  exact (inEngine _).bind fun _ => Moves.pure _

/-! ### Publishing -/

/-- The client takes on a message of the level. -/
def Accepts (c : MqttClient H P E) (qos : QoS) : Prop :=
  c.state.connection_state = .Connected ∧ c.inflight_limit_reached = false ∧ qos ≠ .Level0

/-- How a publish with the given packet ends: it stores nothing, or it stores its message, and
    then fails exactly if the packet cannot be sent. -/
inductive Publishes (c : MqttClient H P E) (topic : TopicName) (qos : QoS) (retain : Bool) (payload : Bytes)
    (packet : Except E P) (r : Except (Halt MqttError) α) (s' : InMemorySession) : Prop where
  | nothing : ¬ Accepts c qos → handshakes s' = handshakes c.session_state → Publishes c topic qos retain payload packet r s'
  | stored {sent : P} : Accepts c qos → packet = .ok sent →
      handshakes s' = (c.session_state.pending_publishes.insert c.session_state.next_pid
        (Operations.stored c topic qos retain payload), c.session_state.pending_pubrels) →
      ((∃ err, r = .error (.err err)) ↔ Unsendable c.protocol_engine sent) →
      Publishes c topic qos retain payload packet r s'

/-- What is done after it leaves the outcome and the tables alone. -/
theorem Publishes.before {c c₁ : MqttClient H P E} {topic : TopicName} {qos : QoS} {retain : Bool} {payload : Bytes}
    {packet : Except E P} {m : ClientM H P E α} {rest : α → ClientM H P E β}
    (ends : ∀ a c, ∃ b, (exec (rest a) c).1 = .ok b ∧
      handshakes (exec (rest a) c).2.session_state = handshakes c.session_state)
    (publishes : wp m c₁ fun r c' => Publishes c topic qos retain payload packet r c'.session_state) :
    wp (m >>= rest) c₁ fun r c' => Publishes c topic qos retain payload packet r c'.session_state := by
  refine wp_seq publishes (fun a c' published => ?_) fun h c' published => ?_
  · obtain ⟨b, returned, same⟩ := ends a c'
    rw [wp, returned]
    cases published with
    | nothing declines before => exact .nothing declines (same.trans before)
    | stored accepts created before fails => exact .stored accepts created (same.trans before) (by simpa using fails)
  · cases published with
    | nothing declines before => exact .nothing declines before
    | stored accepts created before fails => exact .stored accepts created before (by simpa using fails)

/-- Storing a message leaves the sending side alone. -/
theorem store_pending_spec {c : MqttClient H P E} (pid : Pid) (topic : TopicName) (qos : QoS) (retain : Bool)
    (payload : Bytes) {rest : Unit → ClientM H P E α} {Q : Except (Halt MqttError) α → MqttClient H P E → Prop}
    (next : ∀ c', c'.protocol_engine.write_queue = c.protocol_engine.write_queue →
      (∀ packet, Unsendable c'.protocol_engine packet ↔ Unsendable c.protocol_engine packet) →
      handshakes c'.session_state = (c.session_state.pending_publishes.insert pid
        (Operations.stored c topic qos retain payload), c.session_state.pending_pubrels) → wp (rest ()) c' Q) :
    wp (zoom engineSession (store_pending (some pid) topic qos retain payload) >>= rest) c Q :=
  next _ rfl (fun _ => Iff.rfl) rfl

/-- The end of a publish whose message is stored: its packet is sent. -/
theorem send_stored {c c₁ : MqttClient H P E} {topic : TopicName} {qos : QoS} {retain : Bool} {payload : Bytes}
    (accepts : Accepts c qos) (idle : c₁.Idle) (packet : P)
    (stored : handshakes c₁.session_state = (c.session_state.pending_publishes.insert c.session_state.next_pid
      (Operations.stored c topic qos retain payload), c.session_state.pending_pubrels))
    (same : Unsendable c₁.protocol_engine packet ↔ Unsendable c.protocol_engine packet) :
    wp (zoom engine (send_packet packet)) c₁ fun r c' =>
      Publishes c topic qos retain payload (.ok packet) r c'.session_state := by
  rw [wp_zoom]
  refine wp_mono (send_packet_spec (e := c₁.protocol_engine) packet idle) fun r e sent => ?_
  exact .stored accepts rfl stored (sent.fails_iff.trans same)

/-- The checks of both publish operations. -/
theorem checks_spec {c : MqttClient H P E} {topic : TopicName} {qos : QoS} {retain : Bool} {payload : Bytes}
    {packet : Except E P} {request : MqttClient H P E → ClientM H P E Unit}
    (next : c.state.connection_state = .Connected → c.inflight_limit_reached = false →
      wp (request c) c fun r c' => Publishes c topic qos retain payload packet r c'.session_state) :
    wp (MqttClient.whenConnected (get >>= fun c => if c.inflight_limit_reached then fail .PublishFailed else request c)) c
      fun r c' => Publishes c topic qos retain payload packet r c'.session_state := by
  rw [MqttClient.whenConnected, wp_bind, wp_get]
  by_cases connected : c.state.connection_state = .Connected
  swap
  · simp only [connected, ne_eq, not_false_eq_true, if_true]
    exact .nothing (fun accepts => connected accepts.1) rfl
  simp only [connected, ne_eq, not_true_eq_false, if_false]
  rw [wp_bind, wp_get]
  by_cases full : c.inflight_limit_reached = true
  · simp only [full, if_true]
    refine .nothing (fun accepts => ?_) rfl
    cases full.symm.trans accepts.2.1
  · simp only [full]
    exact next connected (Bool.eq_false_iff.mpr full)

variable [LawfulHandler H P E]

theorem publish_spec {c : MqttClient H P E} (idle : c.Idle) (connected : c.state.connection_state = .Connected)
    (linked : c.protocol_engine.connected = true) (free : c.inflight_limit_reached = false) (topic : TopicName) (qos : QoS)
    (retain : Bool) (payload : Bytes) : wp (zoom engineSession (publish topic qos retain payload)) c fun r c' =>
      Publishes c topic qos retain payload (create_publish_packet c.protocol_engine.handler topic qos retain payload
        (some c.session_state.next_pid) false) r c'.session_state := by
  by_cases level : qos = .Level0
  · subst level
    refine wp_mono ((publish_level0 topic retain payload).wp c) fun r c' same => .nothing (fun accepts => ?_) same
    exact accepts.2.2 rfl
  have accepts : Accepts c qos := ⟨connected, free, level⟩
  obtain ⟨qp, carried, -⟩ := Operations.publish_pid_level level c.session_state.next_pid
  obtain ⟨packet, created⟩ := publish_ok c.protocol_engine.handler topic qos retain payload _ false qp carried
  simp only [MqttProtocolEngine.publish, zoom_bind, zoom_get, zoom_ite, zoom_fail, zoom_ofExcept,
    Operations.zoom_first, zoom_pure, bind_assoc, pure_bind]
  rw [wp_bind, wp_get]
  simp only [MqttClient.engineSession_get, linked, Bool.not_true, Bool.false_eq_true, if_false]
  rw [wp_bind, wp, Operations.exec_publish_pid level]
  simp only [created, ofExcept_ok, pure_bind]
  refine store_pending_spec _ _ _ _ _ fun c' queue same stored => Publishes.before (fun _ _ => ⟨_, rfl, rfl⟩) ?_
  exact send_stored accepts (queue.trans idle) packet stored (same packet)

end

section
variable [Codec V5.Packet ErrorV5]

theorem publish_v5_level0 (handler : V5Handler) (created : Except ErrorV5 V5.Packet) :
    Moves Undisturbed (zoom engine (modify fun e => { e with handler := handler }) >>= fun _ =>
      ofExcept (fun err => .Protocol (.V5Specific err)) created >>= fun packet => zoom engine (send_packet packet) >>=
        fun _ => modify fun c => { c with state := c.state.record_message_sent } :
        ClientM V5Handler V5.Packet ErrorV5 PUnit) := by
  refine (inEngine _).bind fun _ => Moves.bind_ofExcept fun _ _ => (inEngine _).bind fun _ => ?_
  exact modifying fun _ => rfl

theorem publish_v5_spec {c : Client .v5} (idle : c.Idle) (topic : TopicName) (payload : Bytes) (config : PublishConfig)
    (v5_config : V5PublishConfig) : wp (MqttClient.publish_v5 topic payload config v5_config) c fun r c' =>
      Publishes c topic config.qos config.retain payload (V5Handler.create_publish_with_config topic config.qos
        config.retain payload (some c.session_state.next_pid) false v5_config c.protocol_engine.handler).1
        r c'.session_state := by
  refine checks_spec fun connected free => ?_
  by_cases level : config.qos = .Level0
  · simp only [level, publish_pid, store_pending, zoom_pure, pure_bind]
    refine wp_mono ((publish_v5_level0 _ _).wp c) fun r c' same => .nothing (fun accepts => ?_) same
    exact accepts.2.2 rfl
  have accepts : Accepts c config.qos := ⟨connected, free, level⟩
  obtain ⟨qp, carried, -⟩ := Operations.publish_pid_level level c.session_state.next_pid
  obtain ⟨packet, created⟩ := Operations.create_publish_with_config_ok topic config.retain payload false v5_config
    c.protocol_engine.handler carried
  rw [wp_bind, wp, Operations.exec_publish_pid level]
  simp only [created, ofExcept_ok, pure_bind]
  rw [wp_bind, wp_zoom, wp_modify]
  refine store_pending_spec _ _ _ _ _ fun c' queue same stored => Publishes.before (fun _ _ => ⟨_, rfl, rfl⟩) ?_
  exact send_stored accepts (queue.trans idle) packet stored (same packet)

variable [Codec V3.Packet MqttProtoError] {v : Version}

/-- The message that an operation publishes. -/
def message : {v : Version} → Op v → Option (TopicName × Bytes × PublishConfig)
  | _, .publish topic payload config => some (topic, payload, config)
  | _, .publish_v5 topic payload config _ => some (topic, payload, config)
  | _, _ => none

/-- The PUBLISH with which an operation sends a message of a level above 0. -/
def packet : {v : Version} → Client v → Op v → Option (Except v.Error v.Packet)
  | _, c, .publish topic payload config => some (create_publish_packet c.protocol_engine.handler topic config.qos
      config.retain payload (some c.session_state.next_pid) false)
  | _, c, .publish_v5 topic payload config v5_config => some (V5Handler.create_publish_with_config topic config.qos
      config.retain payload (some c.session_state.next_pid) false v5_config c.protocol_engine.handler).1
  | _, _, _ => none

/-- What publishing makes of the session. -/
theorem op_publishes {c : Client v} (idle : c.Idle)
    (linked : c.state.connection_state = .Connected → c.protocol_engine.connected = true) {op : Op v} {topic : TopicName}
    {payload : Bytes} {config : PublishConfig} (published : message op = some (topic, payload, config)) :
    wp op.perform c fun r c' => ∃ first, packet c op = some first ∧
      Publishes c topic config.qos config.retain payload first r c'.session_state := by
  have unit : ∀ (a : Unit) (c : Client v), ∃ reply, (exec (pure Reply.unit : ClientM v.Handler v.Packet v.Error Reply) c).1 =
      .ok reply ∧ handshakes (exec (pure Reply.unit : ClientM v.Handler v.Packet v.Error Reply) c).2.session_state =
        handshakes c.session_state := fun _ _ => ⟨_, rfl, rfl⟩
  cases op with
  | publish topic payload config =>
    cases published
    refine wp_mono (Publishes.before unit (checks_spec fun connected free => ?_)) fun r c' ends => ⟨_, rfl, ends⟩
    exact Publishes.before (fun _ _ => ⟨_, rfl, rfl⟩)
      (publish_spec idle connected (linked connected) free topic config.qos config.retain payload)
  | publish_v5 topic payload config v5_config =>
    cases published
    refine wp_mono (Publishes.before unit ?_) fun r c' ends => ⟨_, rfl, ends⟩
    exact publish_v5_spec idle topic payload config v5_config
  | _ => cases published

end

end Masaka.Publishing
