import Masaka.Responses

/-!
The delivery of a message that was acknowledged. The acknowledgment is sent before the
message is put into the receive queue, and a flush that fails in between loses the
message although the transport has accepted the acknowledgment.
-/
namespace Masaka.Undelivered
open Effect MqttProtocolHandler LawfulHandler MqttProtocolEngine Sending Polling

section
variable {H P E : Type} [MqttProtocolHandler H P E] [LawfulHandler H P E]

/-- The message of a PUBLISH, received at a time. -/
def received_message (publish : V3.Publish) (timestamp : Nat) : ReceivedMessage where
  topic := publish.topic_name
  qos := publish.qos_pid.qos
  retain := publish.retain
  payload := publish.payload
  packet_id := publish.qos_pid.pid
  timestamp := timestamp

/-- The message of the PUBLISH is put into the receive queue and returned. -/
def Delivers (message : V3.Publish) (c : MqttClient H P E) (r : Except (Halt MqttError) (Option ClientEvent))
    (c' : MqttClient H P E) : Prop :=
  ∃ timestamp, r = .ok (some (.MessageReceived (received_message message timestamp))) ∧
    c'.state = c.state.add_received_message (received_message message timestamp)

/-- Once the transport has accepted the answer to a PUBLISH, its message is delivered
    exactly if the next flush succeeds. -/
theorem receive_delivers_iff {c : MqttClient H P E} (idle : c.Idle) {packet : P}
    (next : next_packet c.protocol_engine = some packet) {message : V3.Publish}
    (publish : shape (H := H) packet = .publish message) : wp MqttClient.receive c fun r c' =>
      ∀ events frame, c'.protocol_engine.log = c.protocol_engine.log ++ events → .sent frame ∈ events →
        (Delivers message c r c' ↔ c.protocol_engine.world.flush 0 = some (.ok ())) := by
  have waits : Waited c.protocol_engine _ (Responses.waited c.protocol_engine) := receive_packet_unlogged_spec _
  have asks : handle_packet c.protocol_engine.handler packet = .ok (.PublishReceived message.topic_name
      message.qos_pid.qos message.retain message.payload message.qos_pid.pid) :=
    LawfulHandler.handle _ _ _ (congrArg Shape.action publish)
  have arrived : received c.protocol_engine = .ok (.PublishReceived message.topic_name message.qos_pid.qos message.retain
      message.payload message.qos_pid.pid) := by
    rw [received, next_packet_iff.mp next]
    simp only [asks]
    rfl
  obtain ⟨events, log, sent⟩ := Responses.receive_sent_iff idle
  have receives := Responses.receive_packet_receives idle c.session_state
  intro events' frame log' member
  cases List.append_cancel_left (log.symm.trans log')
  obtain ⟨action, done, replies, encodes, takes⟩ := (sent frame).mp member
  cases arrived.symm.trans done
  rw [wp] at receives
  rw [Responses.exec_receive]
  generalize exec receive_packet (c.protocol_engine, c.session_state) = ran at receives
  obtain ⟨r, e', t⟩ := ran
  cases receives with
  | unread failed => cases failed.symm.trans arrived
  | @read action r s' done' replied =>
    cases arrived.symm.trans done'
    cases replied with
    | silent silent => rw [waits.handler, replies] at silent; cases silent
    | @sent packet' r e' replies' sent' =>
      rw [waits.handler] at replies'
      cases replies.symm.trans replies'
      have sends : Sends c.protocol_engine frame.packet ↔ c.protocol_engine.world.flush 0 = some (.ok ()) := by
        refine ⟨fun sends => ?_, fun flushed => ⟨frame.bytes, encodes, takes, flushed⟩⟩
        obtain ⟨_, -, -, flushed⟩ := sends
        exact flushed
      rw [← sends, ← Discharge.sends_waited waits, ← sent'.succeeds_iff]
      cases r with
      | ok _ => exact ⟨fun _ => rfl, fun _ => ⟨_, rfl, rfl⟩⟩
      | error h =>
        refine ⟨fun delivers => ?_, fun same => by cases same⟩
        obtain ⟨timestamp, returned, -⟩ := delivers
        cases returned

end

section
variable [Codec V3.Packet MqttProtoError] [Codec V5.Packet ErrorV5] {v : Version}

/-- The poll puts the message of the PUBLISH into the receive queue and returns it. -/
def Delivered (message : V3.Publish) (c₁ : Client v) (r : Except (Halt MqttError) Reply × Client v) : Prop :=
  ∃ timestamp, r.1 = .ok (.event (some (.MessageReceived (received_message message timestamp)))) ∧
    r.2.state = c₁.state.add_received_message (received_message message timestamp)

/-- If the poll that processes a PUBLISH has handed over all bytes of its answer, the
    message is delivered exactly if the flush after it succeeds. -/
theorem acknowledged_delivered_iff {c : Client v} (reachable : c.Reachable) {call : Call v} {c₁ : Client v}
    (waits : c.waiting call = some c₁) {packet : v.Packet} (next : next_packet c₁.protocol_engine = some packet)
    {message : V3.Publish} (publish : shape (H := v.Handler) packet = .publish message)
    {events : List (Event v.Packet)} (log : (c.after call).protocol_engine.log = c₁.protocol_engine.log ++ events)
    {frame : Frame v.Packet} (acknowledged : .sent frame ∈ events) :
    Delivered message c₁ (c.call call) ↔ c₁.protocol_engine.world.flush 0 = some (.ok ()) := by
  have receives := receive_delivers_iff (Client.waiting_follows waits reachable.idle).1 next publish
  rw [Client.after, Client.call_waiting waits] at log
  rw [Client.call_waiting waits, ← receives events frame log acknowledged]
  constructor
  · rintro ⟨timestamp, returned, queued⟩
    refine ⟨timestamp, ?_, queued⟩
    cases result : (exec MqttClient.receive c₁).1 with
    | error h => simp only [result] at returned; cases returned
    | ok event => simp only [result] at returned; cases returned; rfl
  · rintro ⟨timestamp, returned, queued⟩
    exact ⟨timestamp, by rw [returned]; rfl, queued⟩

end

section
local instance : Codec V3.Packet MqttProtoError := Wire.v3Codec
local instance : Codec V5.Packet ErrorV5 := Wire.v5Codec

def connected : Client .v3 :=
  Client.run (MqttClient.new (.obliging true []) {} {}) [⟨.connect, .obliging true [.Connack ⟨false, 0⟩]⟩]

theorem connected_reachable : connected.Reachable := ⟨_, (), _, _, rfl⟩

def message : V3.Publish := ⟨false, .Level1 .default, false, "a", [1]⟩

/-- A poll that reads the message over a transport that takes every byte and flushes as given. -/
def reading (flushed : Except TransportError Unit) : Call .v3 :=
  ⟨.poll, { World.obliging true [.Publish message] with flush := fun _ => some flushed }⟩

def puback : Frame V3.Packet := ⟨.Puback .default, Wire.v3 (.Puback .default)⟩

/-- The call has handed over all bytes of the PUBACK. -/
theorem reading_acknowledged (flushed : Except TransportError Unit)
    (acknowledges : ∀ c₁ ∈ connected.waiting (reading flushed), next_packet c₁.protocol_engine = some (.Publish message) ∧
      (connected.after (reading flushed)).protocol_engine.log.take c₁.protocol_engine.log.length = c₁.protocol_engine.log ∧
      .sent puback ∈ (connected.after (reading flushed)).protocol_engine.log.drop c₁.protocol_engine.log.length)
    (waits : (connected.waiting (reading flushed)).isSome = true) : ∃ c₁ events, connected.waiting (reading flushed) = some c₁ ∧
      next_packet c₁.protocol_engine = some (.Publish message) ∧
      (connected.after (reading flushed)).protocol_engine.log = c₁.protocol_engine.log ++ events ∧ .sent puback ∈ events := by
  obtain ⟨c₁, waits⟩ := Option.isSome_iff_exists.mp waits
  obtain ⟨next, start, sent⟩ := acknowledges c₁ waits
  refine ⟨c₁, _, waits, next, ?_, sent⟩
  conv_lhs => rw [← List.take_append_drop c₁.protocol_engine.log.length (connected.after (reading flushed)).protocol_engine.log,
    start]

theorem acknowledged_delivered_flushed : ∃ c₁ : Client .v3, connected.waiting (reading (.ok ())) = some c₁ ∧
    (Delivered message c₁ (connected.call (reading (.ok ()))) ↔ c₁.protocol_engine.world.flush 0 = some (.ok ())) := by
  obtain ⟨c₁, events, waits, next, log, sent⟩ := reading_acknowledged (.ok ()) (by decide +kernel) (by decide +kernel)
  exact ⟨c₁, waits, acknowledged_delivered_iff connected_reachable waits next rfl log sent⟩

/-- A message whose PUBACK the transport has accepted is lost if it fails to flush it. -/
theorem acknowledged_lost : ¬ ∀ (c c₁ : Client .v3) (call : Call .v3) (packet : V3.Packet) (message : V3.Publish)
    (events : List (Event V3.Packet)) (frame : Frame V3.Packet), c.Reachable → c.waiting call = some c₁ →
      next_packet c₁.protocol_engine = some packet → packet.shape = .publish message →
      (c.after call).protocol_engine.log = c₁.protocol_engine.log ++ events → .sent frame ∈ events →
      Delivered message c₁ (c.call call) := by
  intro delivered
  obtain ⟨c₁, events, waits, next, log, sent⟩ :=
    reading_acknowledged (.error .ConnectionLost) (by decide +kernel) (by decide +kernel)
  obtain ⟨timestamp, returned, -⟩ := delivered connected c₁ _ _ message events puback connected_reachable waits next rfl log sent
  have failed : (connected.call (reading (.error .ConnectionLost))).1 = .error (.err (.Transport .ConnectionLost)) := by
    decide +kernel
  cases failed.symm.trans returned

end

end Masaka.Undelivered
