import Masaka.Attempts
import Masaka.Polling

/-!
A DISCONNECT from the broker. The handler of version 5.0 makes no action of it, so
neither the engine nor the client learns that the connection is over.
-/
namespace Masaka.ServerDisconnect
open Effect Runs MqttProtocolHandler LawfulHandler MqttProtocolEngine Sending Flags Attempts
open MqttClient (engine engineSession)

section
variable {H P E : Type} [MqttProtocolHandler H P E]

/-- A ping of a connected client writes its PINGREQ, if it can be encoded and the transport refuses nothing. -/
theorem ping_writes {c : MqttClient H P E} (idle : c.Idle) (connected : c.state.connection_state = .Connected)
    (linked : c.protocol_engine.connected = true) {bytes : VarBytes}
    (encodes : encode_packet c.protocol_engine.handler (create_pingreq_packet c.protocol_engine.handler) = .ok bytes)
    (taking : Taking c.protocol_engine.world.write) (flushed : c.protocol_engine.world.flush 0 = some (.ok ())) :
    wp MqttClient.ping c fun _ c' => ∃ events, c'.protocol_engine.log = c.protocol_engine.log ++ events ∧
      Wrote [create_pingreq_packet c.protocol_engine.handler] events := by
  rw [MqttClient.ping, MqttClient.whenConnected, wp_bind, wp_get]
  simp only [connected, ne_eq, not_true_eq_false, if_false]
  rw [wp_zoom, MqttProtocolEngine.ping, wp_bind, wp_get]
  simp only [MqttClient.engine_get, linked, Bool.not_true, Bool.false_eq_true, if_false]
  refine wp_mono (send_packet_spec _ idle) fun r e sent => ?_
  obtain ⟨-, events, rest, log, transmission⟩ := sent.succeeds encodes taking flushed
  exact ⟨events, log, transmission_wrote transmission⟩

/-- What no handler makes an action of, receiving returns nothing for, and leaves the connection as it is. -/
theorem receive_ignored {c : MqttClient H P E} (nothing : received c.protocol_engine = .ok .None) :
    wp MqttClient.receive c fun r c' => r = .ok none ∧ flags c' = flags c := by
  rw [MqttClient.receive, wp_bind, wp_attempt, wp_zoom, receive_packet, wp_bind, wp_zoom]
  refine wp_mono (receive_packet_unlogged_spec c.protocol_engine) fun r e waited => ?_
  have outcome : r = .ok .None := waited.outcome.trans nothing
  subst outcome
  refine ⟨rfl, ?_⟩
  change (c.state.connection_state, e.connected) = _
  rw [waited.connected]
  rfl

end

section
variable [Codec V3.Packet MqttProtoError] [Codec V5.Packet ErrorV5]

/-- The poll comes to wait for a packet, and a DISCONNECT arrives. -/
def Processes (c : Client .v5) (call : Call .v5) (reason_code : UInt8) : Prop :=
  ((c.waiting call).bind fun c₁ => Polling.next_packet c₁.protocol_engine) = some (.Disconnect reason_code)

instance (c : Client .v5) (call : Call .v5) (reason_code : UInt8) : Decidable (Processes c call reason_code) :=
  inferInstanceAs (Decidable (@Eq (Option V5.Packet) _ _))

/-- The client is no longer connected after the call. -/
def Leaves (c : Client .v5) (call : Call .v5) : Prop := (c.after call).state.connection_state ≠ .Connected

/-- The call reports that the connection is lost, or attempts to reconnect. -/
def Reports (c : Client .v5) (call : Call .v5) : Prop :=
  (∃ err, (c.call call).1 = .error (.err err)) ∨ (c.call call).1 = .ok (.event (some .Disconnected)) ∨
    delays (c.events call) ≠ []

/-- As long as no CONNECT opens another connection, no packet is sent. -/
def Silent (c : Client .v5) : Prop := ∀ later : List (Call .v5),
  (∀ packet ∈ packets_queued (gather Client.after Client.events c later),
    ∀ clean_session, shape (H := V5Handler) packet ≠ .connect clean_session) →
      packets_sent (gather Client.after Client.events c later) = []

/-- A connected client is not silent: it may ping. -/
theorem connected_not_silent {c : Client .v5} (reachable : c.Reachable) (connected : c.state.connection_state = .Connected)
    {bytes : VarBytes} (encodes : Codec.encode V5.Packet.Pingreq = (.ok bytes : Except ErrorV5 VarBytes)) : ¬ Silent c := by
  intro silent
  let pinging : Call .v5 := ⟨.ping, .obliging true []⟩
  have linked := Reconnect.connected_linked reachable connected
  have pings := ping_writes (c := c.withWorld pinging.world) reachable.idle connected linked encodes (fun _ => rfl) rfl
  rw [wp, ← exec_result_state MqttClient.ping fun _ => Reply.unit] at pings
  obtain ⟨events, log, wrote⟩ := pings
  have gained : (c.after pinging).protocol_engine.log = c.protocol_engine.log ++ events := log
  have gathered : gather Client.after Client.events c [pinging] = events := by
    rw [gather_cons, gather_nil, List.append_nil, Client.events, gained, List.drop_left]
  have nothing := silent [pinging]
  rw [gathered, wrote.queued, wrote.sent] at nothing
  have pingreq : ∀ packet ∈ [V5.Packet.Pingreq], ∀ clean_session,
      shape (H := V5Handler) packet ≠ .connect clean_session := by
    intro packet member clean_session
    rw [List.mem_singleton.mp member]
    exact fun same => by cases same
  cases nothing pingreq

/-- A poll that processes a DISCONNECT returns nothing, and the client stays connected. -/
theorem poll_ignores {c : Client .v5} (idle : c.Idle) {call : Call .v5} {reason_code : UInt8}
    (processes : Processes c call reason_code) : (c.call call).1 = .ok (.event none) ∧
      (c.after call).state.connection_state = c.state.connection_state ∧ delays (c.events call) = [] := by
  obtain ⟨c₁, waits, arrived⟩ := Option.bind_eq_some_iff.mp processes
  have nothing : received c₁.protocol_engine = .ok .None := by
    rw [received, Polling.next_packet_iff.mp arrived]
    rfl
  have ignored := receive_ignored nothing
  rw [wp] at ignored
  have ran := Client.call_waiting waits
  have after : c.after call = (exec MqttClient.receive c₁).2 := congrArg Prod.snd ran
  have returned : (c.call call).1 = .ok (.event none) := by
    rw [ran, ignored.1]
    rfl
  refine ⟨returned, ?_⟩
  obtain ⟨op, world⟩ := call
  cases op with
  | poll =>
    obtain ⟨up, -, waited⟩ := Polling.waiting_some waits
    have steady := until_receive_steady (c.withWorld world)
    rw [waited] at steady
    have polled := poll_linked (c := c.withWorld world) up
    have untallied := poll_connected_untallied (c.withWorld world)
    rw [← polled, ← Client.after_poll] at untallied
    have waits : delays (c.after ⟨.poll, world⟩).protocol_engine.log = delays c.protocol_engine.log :=
      congrArg (·.2.2.2) untallied
    rw [Client.call_log idle, delays_append] at waits
    refine ⟨?_, List.append_right_eq_self.mp waits⟩
    rw [after]
    exact (congrArg Prod.fst ignored.2).trans steady.state
  | _ => cases waits

/-- A poll that processes a DISCONNECT does not end the connection: the client stays connected,
    nothing is reported or attempted, and the client may go on sending. -/
theorem disconnect_ignored {c : Client .v5} (reachable : c.Reachable) (connected : c.state.connection_state = .Connected)
    {call : Call .v5} {reason_code : UInt8} (processes : Processes c call reason_code) :
    ¬ Leaves c call ∧ ¬ Reports c call ∧ ∀ bytes, Codec.encode V5.Packet.Pingreq = (.ok bytes : Except ErrorV5 VarBytes) →
      ¬ Silent (c.after call) := by
  obtain ⟨returned, stays, undelayed⟩ := poll_ignores reachable.idle processes
  have still : (c.after call).state.connection_state = .Connected := stays.trans connected
  refine ⟨fun leaves => leaves still, ?_, fun bytes encodes => ?_⟩
  · rintro (⟨err, failed⟩ | disconnected | attempted)
    · cases returned.symm.trans failed
    · cases returned.symm.trans disconnected
    · exact attempted undelayed
  · exact connected_not_silent (reachable.after call) still encodes

end

/-! ### A broker that shuts down -/

section
local instance : Codec V3.Packet MqttProtoError := Wire.v3Codec
local instance : Codec V5.Packet ErrorV5 := Wire.v5Codec

def connected : Client .v5 := Client.run (MqttClient.new (.obliging true []) (Version.handler .v5 {}) {})
  [⟨.connect, .obliging true [.Connack { session_present := false, reason_code := 0 }]⟩]

/-- The broker says that it shuts down. -/
def shutting_down : Call .v5 := ⟨.poll, .obliging true [.Disconnect 0x8B]⟩

theorem connected_reachable : connected.Reachable := ⟨_, {}, _, _, rfl⟩

theorem disconnect_ignored_shutdown : ¬ Leaves connected shutting_down ∧ ¬ Reports connected shutting_down ∧
    ∀ bytes, Codec.encode V5.Packet.Pingreq = (.ok bytes : Except ErrorV5 VarBytes) →
      ¬ Silent (connected.after shutting_down) :=
  disconnect_ignored connected_reachable (by decide +kernel)
    (by decide +kernel : Processes connected shutting_down 0x8B)

/-- The client stays connected. -/
theorem stays_connected : ¬ ∀ (c : Client .v5) (call : Call .v5) (reason_code : UInt8), c.Reachable →
    c.state.connection_state = .Connected → Processes c call reason_code →
    Leaves c call ∧ Silent (c.after call) ∧ Reports c call := by
  intro ends
  have left := (ends connected shutting_down 0x8B connected_reachable (by decide +kernel) (by decide +kernel)).1
  have still : (connected.after shutting_down).state.connection_state = .Connected := by decide +kernel
  exact left still

end

end Masaka.ServerDisconnect
