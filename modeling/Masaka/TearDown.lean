import Masaka.Connected

/-!
Disconnecting. The transport is closed and the engine's flag reset only after the
DISCONNECT was sent, and a client that counts as disconnected does not try again.
-/
namespace Masaka.TearDown
open Effect Runs MqttProtocolHandler MqttProtocolEngine Sending Flags
open MqttClient (engine)

section
variable {H P E : Type} [MqttProtocolHandler H P E]

/-- The error is not the refusal of an engine that is connected already. -/
def Apart (err : MqttError) : Prop := err ≠ .InvalidState

theorem apart_transport (err : TransportError) : Apart (.Transport err) := fun same => by cases same

section
variable (proper : ∀ err : E, Apart (into H err))
include proper

theorem raises_apart_receive : Raises Apart (receive_packet_unlogged : EngineM H P E PacketAction) := by
  have reading : Raises Apart (read_from_transport : EngineM H P E P) := by
    intro e err failed
    simp only [read_from_transport, exec_ofExec] at failed
    split at failed
    · cases failed
    · cases failed
      exact proper _
    · cases failed
  refine reading.bind fun packet => Raises.bind (fun e err failed => ?_) fun time => ?_
  · cases failed
  · exact (Raises.modify _).bind fun _ => Raises.get.bind fun e => Raises.ofExcept proper _

/-- The handshake of an engine that is free fails for another reason. -/
theorem handshake_apart (config : ClientConfig) {e : MqttProtocolEngine H P E} (free : e.connected = false) :
    wp (Reconnect.handshake config) e fun r _ => ∀ err, r = .error (.err err) → Apart err := by
  intro err failed
  rw [Reconnect.handshake, connect_with_will, exec_bind, exec_get] at failed
  simp only [free, Bool.false_eq_true, if_false] at failed
  refine Raises.bind (Raises.modify _) (fun _ => ?_) e err failed
  refine (Raises.ofExcept proper _).bind fun packet => (raises_send_packet apart_transport proper packet).bind fun _ => ?_
  refine (raises_apart_receive proper).bind fun action => ?_
  cases action with
  | ConnectAck session_present return_code =>
    refine Raises.ite ((Raises.modify _).bind fun _ => Raises.pure _) (Raises.fail ?_)
    exact fun same => by cases same
  | _ => exact Raises.fail fun same => by cases same

theorem raises_apart_resend : Raises Apart (MqttClient.resend_pending_messages : ClientM H P E Unit) :=
  Raises.get.bind fun _ => Raises.forM (fun _ => Raises.get.bind fun _ => (Raises.ofExcept proper _).bind fun packet =>
    (raises_send_packet apart_transport proper packet).zoom engine) _

/-- A connect of an engine that is free is not refused. -/
theorem connect_apart {c : MqttClient H P E} (free : c.protocol_engine.connected = false) :
    wp MqttClient.connect c fun r _ => ∀ err, r = .error (.err err) → Apart err := by
  by_cases valid : c.config.validate = .ok ()
  swap
  · obtain ⟨err, ran⟩ := Reconnect.connect_invalid valid
    rw [wp, ran]
    intro err' failed
    cases failed
    exact fun same => by cases same
  have begun : (Reconnect.beginning c).protocol_engine.connected = false := (Reconnect.beginning_connected c).trans free
  refine Reconnect.connect_seq valid (wp_and (handshake_apart proper c.config begun)
    (connect_with_will_flag _ _ _ _ _ _ _ _ _ begun)) (fun e err shook => ?_) (fun e action err shook other => ?_)
    (fun e _ => ?_) fun e session_present _ => ?_
  · intro err' failed
    exact shook.1 err' (congrArg Except.error (Except.error.inj failed))
  · obtain ⟨session_present, same⟩ := shook.2.2 action rfl
    exact absurd same (other session_present)
  · intro err failed
    cases failed
  · exact Raises.ite (raises_apart_resend proper) (Raises.pure _) _

end

omit [MqttProtocolHandler H P E] in
/-- A connect leaves the flag set only of a client whose configuration is valid. -/
theorem connects_valid {c : MqttClient H P E} {r : Except (Halt MqttError) Unit} {after : ConnectionState × Bool}
    (connects : Connects c r after) (valid : c.protocol_engine.connected = true → c.config.validate = .ok ()) :
    after.2 = true → c.config.validate = .ok () := by
  intro set
  cases connects with
  | invalid _ => exact valid set
  | refused checked _ => exact checked
  | failed _ => cases set
  | dropped _ => cases set
  | accepted checked _ => exact checked

end

section
variable [Codec V3.Packet MqttProtoError] [Codec V5.Packet ErrorV5] {v : Version}

theorem into_apart (err : v.Error) : Apart (into v.Handler err) := by
  cases v <;> exact fun same => by cases same

theorem flag_valid_after {c : Client v} (reachable : c.Reachable) (call : Call v)
    (valid : c.protocol_engine.connected = true → c.config.validate = .ok ()) :
    (c.after call).protocol_engine.connected = true → c.config.validate = .ok () := by
  obtain ⟨op, world⟩ := call
  have idle : (c.withWorld world).Idle := reachable.idle
  by_cases linking : links op = false
  · have steady : Steady (c.withWorld world) (c.after ⟨op, world⟩) := perform_steady linking _
    rw [steady.engine.connected]
    exact valid
  change wp op.perform (c.withWorld world) fun _ c' => (flags c').2 = true → c.config.validate = .ok ()
  cases op with
  | connect => exact wp_result (wp_mono (connect_flags _) fun r c' connects =>
      connects_valid (c := c.withWorld world) connects valid)
  | reconnect =>
    refine wp_result (wp_mono (reconnect_flags _) fun r c' ended => ?_)
    generalize flags c' = after at ended
    cases ended with
    | refused _ => exact valid
    | dropped => exact valid
    | connects _ connects => exact connects_valid (c := c.withWorld world) connects valid
  | disconnect =>
    refine wp_result ?_
    by_cases running : c.state.connection_state = .Disconnected
    · rw [wp, disconnect_over (by exact running)]
      exact valid
    have sent_flag : ∀ {r e}, Sent (create_disconnect_packet c.protocol_engine.handler)
        (c.withWorld world).protocol_engine r e → e.connected = true → c.config.validate = .ok () := by
      intro r e sent set
      exact valid (sent.frame.1.symm.trans set)
    refine disconnect_seq idle running (fun _ => valid) (fun _ e err sent => sent_flag sent)
      (fun _ e sent => sent_flag sent) fun _ e _ => ⟨fun set => ?_, fun r _ set => ?_⟩
    · cases set
    · cases set
  | poll =>
    have linked := Reconnect.connected_linked reachable
    refine wp_result (wp_mono (poll_flags idle linked) fun r c' ended => ?_)
    rcases ended with same | ⟨-, -, same⟩ | ⟨-, -, same⟩ <;> rw [same] <;> exact valid
  | _ => exact absurd rfl linking

/-- The flag of an engine is set only if the configuration is valid. -/
theorem flag_valid {c : Client v} (reachable : c.Reachable) (set : c.protocol_engine.connected = true) :
    c.config.validate = .ok () := by
  obtain ⟨world, setup, config, calls, rfl⟩ := reachable
  refine (Runs.invariant_all (I := fun c : Client v => c.Reachable ∧
    (c.protocol_engine.connected = true → c.config.validate = .ok ())) (fun c call holds => ?_)
    ⟨⟨world, setup, config, [], rfl⟩, fun set => (by cases set)⟩ calls).2 set
  obtain ⟨reachable, valid⟩ := holds
  refine ⟨reachable.after call, ?_⟩
  rw [(Client.call_path reachable.idle call).2.1]
  exact flag_valid_after reachable call valid

/-! ### Disconnecting -/

/-- The disconnect has closed the transport, and a connect over a transport that works again is
    not refused. -/
structure TornDown (c : Client v) (world : World v.Packet v.Error) : Prop where
  closed : ∃ answer, .close answer ∈ c.events ⟨.disconnect, world⟩
  free : ∀ later, Reconnect.Usable later →
    ((c.after ⟨.disconnect, world⟩).call ⟨.connect, later⟩).1 ≠ .error (.err .InvalidState)

/-- A broker that accepts a CONNECT. -/
theorem usable_exists : ∃ world : World v.Packet v.Error, Reconnect.Usable world := by
  cases v with
  | v3 => exact ⟨.obliging true [.Connack ⟨false, 0⟩], rfl, fun _ => ⟨_, rfl⟩, fun _ => rfl, _, _, rfl, rfl⟩
  | v5 => exact ⟨.obliging true [.Connack ⟨false, 0, {}⟩], rfl, fun _ => ⟨_, rfl⟩, fun _ => rfl, _, _, rfl, rfl⟩

/-- A connect of a client whose engine is free is not refused; one of a client whose flag is set is. -/
theorem refused_iff {c : Client v} (valid : c.protocol_engine.connected = true → c.config.validate = .ok ())
    (later : World v.Packet v.Error) :
    (c.call ⟨.connect, later⟩).1 = .error (.err .InvalidState) ↔ c.protocol_engine.connected = true := by
  rw [c.connect_returns]
  constructor
  · intro refused
    by_contra unset
    have apart := connect_apart into_apart (c := c.withWorld later) (Bool.eq_false_iff.mpr unset)
    rw [wp] at apart
    rcases ran : (exec MqttClient.connect (c.withWorld later)).1 with h | _
    · rw [ran] at refused
      cases refused
      exact apart .InvalidState ran rfl
    · rw [ran] at refused
      cases refused
  · intro set
    rw [Reconnect.connect_refused (c := c.withWorld later) set (valid set)]
    rfl

/-- A disconnect that returns tears the link down exactly if the client does not count as
    disconnected already and its DISCONNECT can be sent. -/
theorem torn_down_iff {c : Client v} (reachable : c.Reachable) (connected : c.protocol_engine.connected = true)
    (world : World v.Packet v.Error) (returned : (c.call ⟨.disconnect, world⟩).1 ≠ .error .cut) :
    TornDown c world ↔ c.state.connection_state ≠ .Disconnected ∧
      Sends (c.withWorld world).protocol_engine (create_disconnect_packet c.protocol_engine.handler) := by
  have valid : (c.after ⟨.disconnect, world⟩).protocol_engine.connected = true →
      (c.after ⟨.disconnect, world⟩).config.validate = .ok () := flag_valid (reachable.after _)
  have log := Client.call_log reachable.idle ⟨.disconnect, world⟩
  obtain ⟨later, usable⟩ := usable_exists (v := v)
  -- What is left connected is refused.
  have standing : (c.after ⟨.disconnect, world⟩).protocol_engine.connected = true → ¬ TornDown c world :=
    fun set torn => torn.free later usable ((refused_iff valid later).mpr set)
  have after := c.after_disconnect world
  by_cases running : c.state.connection_state = .Disconnected
  · refine iff_of_false (standing ?_) fun sends => sends.1 running
    rw [after, disconnect_over (by exact running)]
    exact connected
  simp only [running, ne_eq, not_false_eq_true, true_and]
  have value := c.disconnect_returns world
  have uncut : (exec MqttClient.disconnect (c.withWorld world)).1 ≠ .error .cut := fun cut =>
    returned (value.trans (map_error cut _))
  have ended : wp MqttClient.disconnect (c.withWorld world) fun r c' => r ≠ .error .cut →
      (c'.protocol_engine.connected = true ∧
        ¬ Sends (c.withWorld world).protocol_engine (create_disconnect_packet c.protocol_engine.handler)) ∨
      (c'.protocol_engine.connected = false ∧ (∃ more answer, c'.protocol_engine.log = c.protocol_engine.log ++ more ∧
          .close answer ∈ more) ∧
        Sends (c.withWorld world).protocol_engine (create_disconnect_packet c.protocol_engine.handler)) := by
    refine disconnect_seq (c := c.withWorld world) reachable.idle running (fun free => ?_) (fun _ e err sent _ => ?_)
      (fun _ e _ whole => absurd rfl whole) fun _ e sent => ⟨fun whole => absurd rfl whole, fun r _ _ => ?_⟩
    · cases connected.symm.trans free
    · refine .inl ⟨sent.frame.1.trans connected, fun sends => ?_⟩
      cases sent.succeeds_iff.mpr sends
    · refine .inr ⟨rfl, ?_, sent.succeeds_iff.mp rfl⟩
      obtain ⟨events, gained, -⟩ := sent.sent_iff
      refine ⟨events ++ [.close (e.world.close 0)], e.world.close 0, ?_, by simp⟩
      change e.log ++ [_] = _
      rw [gained, List.append_assoc]
      rfl
  rw [after] at valid log standing
  rcases ended uncut with ⟨set, unsent⟩ | ⟨free, ⟨more, answer, gained, closed⟩, sent⟩
  · exact iff_of_false (standing set) unsent
  · refine iff_of_true ⟨⟨answer, ?_⟩, fun later _ refused => ?_⟩ sent
    · rw [List.append_cancel_left (log.symm.trans gained)]
      exact closed
    · rw [after] at refused
      cases free.symm.trans ((refused_iff valid later).mp refused)

end

/-! ### A DISCONNECT that cannot be sent -/

section
local instance : Codec V3.Packet MqttProtoError := Wire.v3Codec
local instance : Codec V5.Packet ErrorV5 := Wire.v5Codec

/-- The transport takes nothing. -/
def broken : World V3.Packet MqttProtoError := { World.obliging true [] with
  write := fun _ => some (.error (.Io "broken pipe")) }

/-- A connected client. -/
def connected : Client .v3 := Client.run Closed.new_client [Closed.connecting]

theorem connected_reachable : connected.Reachable := ⟨_, (), _, _, rfl⟩

theorem torn_down_obliging : TornDown connected (.obliging true []) ↔ connected.state.connection_state ≠ .Disconnected ∧
    Sends (connected.withWorld (.obliging true [])).protocol_engine
      (create_disconnect_packet connected.protocol_engine.handler) :=
  torn_down_iff connected_reachable (by decide +kernel) _ (by decide +kernel)

/-- The disconnect returns an error, and the next connect is refused. -/
theorem stays_up : ¬ ∀ (c : Client .v3) (world : World V3.Packet MqttProtoError), c.Reachable →
    c.protocol_engine.connected = true → (c.call ⟨.disconnect, world⟩).1 ≠ .error .cut → TornDown c world := by
  intro torn
  have down := torn connected broken connected_reachable (by decide +kernel) (by decide +kernel)
  have refused : ((connected.after ⟨.disconnect, broken⟩).call
      ⟨.connect, Reconnect.link_down⟩).1 = .error (.err .InvalidState) := by decide +kernel
  exact down.free _ Reconnect.link_down_usable refused

end

end Masaka.TearDown
