import Masaka.Operations
import Masaka.Wire

/-!
Reconnecting after the link was lost. The engine keeps its flag from the lost
connection, and refuses a CONNECT while the flag is set; so no attempt succeeds.
-/
namespace Masaka.Reconnect
open Effect MqttProtocolHandler LawfulHandler

section
variable {H P E : Type} [MqttProtocolHandler H P E]

/-- `reconnect` may make another attempt. -/
def AttemptsRemain (c : MqttClient H P E) : Prop :=
  c.config.reconnect.max_attempts = 0 ∨ c.reconnect_attempt < c.config.reconnect.max_attempts

/-! ### Connecting -/

/-- The client once it has begun to connect. -/
def beginning (c : MqttClient H P E) : MqttClient H P E := { c with
  state := c.state.set_connection_state .Connecting
  session_state := if c.config.clean_session then SessionState.clear c.session_state else c.session_state
  protocol_engine := if c.config.clean_session then MqttProtocolEngine.record .cleared c.protocol_engine
    else c.protocol_engine }

omit [MqttProtocolHandler H P E] in
/-- The beginning of a connect changes nothing of the engine but its log. -/
theorem beginning_engine (c : MqttClient H P E) : (beginning c).protocol_engine = { c.protocol_engine with
    log := c.protocol_engine.log ++ if c.config.clean_session then [Event.cleared] else [] } := by
  rw [beginning]
  cases c.config.clean_session with
  | false => simp
  | true => rfl

section
omit [MqttProtocolHandler H P E]
variable (c : MqttClient H P E)

theorem beginning_connected : (beginning c).protocol_engine.connected = c.protocol_engine.connected := by
  rw [beginning_engine]
theorem beginning_queue : (beginning c).protocol_engine.write_queue = c.protocol_engine.write_queue := by
  rw [beginning_engine]

/-- What the log says of the beginning of a connect. -/
theorem beginning_log : (beginning c).protocol_engine.log =
    c.protocol_engine.log ++ if c.config.clean_session then [Event.cleared] else [] := by
  rw [beginning_engine]

end

/-- The handshake of a client with the configuration. -/
def handshake (config : ClientConfig) : EngineM H P E PacketAction :=
  let will := config.will_message
  MqttProtocolEngine.connect_with_will config.client_id config.username config.password config.keep_alive
    config.clean_session (will.map (·.topic)) (will.map (·.payload)) (will.map (·.qos)) ((will.map (·.retain)).getD false)

/-- A client that is connected, once its CONNECT was accepted. -/
def connecting (e : MqttProtocolEngine H P E) (c : MqttClient H P E) : MqttClient H P E := { beginning c with
  protocol_engine := e
  state := (beginning c).state.set_connection_state .Connected
  reconnect_attempt := 0
  reconnect_interval_ms := 0 }

/-- A connect with a valid configuration: its handshake fails, is dropped, or has the
    CONNECT accepted, and then the pending messages are sent again. -/
theorem connect_seq {c : MqttClient H P E} (valid : c.config.validate = .ok ())
    {R : Except (Halt MqttError) PacketAction → MqttProtocolEngine H P E → Prop}
    {Q : Except (Halt MqttError) Unit → MqttClient H P E → Prop} (shakes : wp (handshake c.config) (beginning c).protocol_engine R)
    (failed : ∀ e err, R (.error (.err err)) e → Q (.error (.err err)) { beginning c with
      protocol_engine := e, state := (beginning c).state.set_connection_state .Error })
    (refused : ∀ e action err, R (.ok action) e → (∀ session_present, action ≠ .ConnectAck session_present 0) →
      Q (.error (.err err)) { beginning c with
        protocol_engine := e, state := (beginning c).state.set_connection_state .Error })
    (dropped : ∀ e, R (.error .cut) e → Q (.error .cut) { beginning c with protocol_engine := e })
    (accepted : ∀ e session_present, R (.ok (.ConnectAck session_present 0)) e →
      wp (onlyIf (session_present && !c.config.clean_session) MqttClient.resend_pending_messages) (connecting e c) Q) :
    wp MqttClient.connect c Q := by
  rw [MqttClient.connect, wp_bind, wp_get]
  simp only [valid, ofExcept_ok, pure_bind]
  rw [wp_bind, MqttClient.set_connection_state, wp_modify]
  have begun : exec (onlyIf c.config.clean_session MqttClient.clear_session : ClientM H P E Unit)
      { c with state := c.state.set_connection_state .Connecting } = (.ok (), beginning c) := by
    rw [beginning]
    cases c.config.clean_session <;> rfl
  rw [wp_bind, wp, begun]
  change wp (attempt (zoom MqttClient.engine (handshake c.config)) >>= _) (beginning c) Q
  rw [wp_bind, wp_attempt, wp_zoom]
  refine wp_mono shakes fun r e shook => ?_
  rcases r with (err | _) | action
  · exact failed e err shook
  · exact dropped e shook
  cases action with
  | ConnectAck session_present return_code =>
    by_cases zero : return_code = 0
    · subst zero
      exact accepted e session_present shook
    · simp only [zero, if_false]
      refine refused e _ _ shook fun present same => ?_
      cases same
      exact zero rfl
  | _ => exact refused e _ _ shook fun _ same => by cases same

/-- A connect with an invalid configuration does nothing. -/
theorem connect_invalid {c : MqttClient H P E} (invalid : c.config.validate ≠ .ok ()) :
    ∃ err, exec MqttClient.connect c = (.error (.err (.Config err)), c) := by
  rw [MqttClient.connect, exec_bind, exec_get]
  cases checked : c.config.validate with
  | ok _ => exact absurd checked invalid
  | error err =>
    refine ⟨err, ?_⟩
    simp only [checked, ofExcept_error]
    rfl

/-- A connect of an engine whose flag is set. -/
theorem connect_refused {c : MqttClient H P E} (flag : c.protocol_engine.connected = true)
    (valid : c.config.validate = .ok ()) : exec MqttClient.connect c = (.error (.err .InvalidState),
      { beginning c with state := (beginning c).state.set_connection_state .Error }) := by
  change wp MqttClient.connect c fun r c' => (r, c') = (.error (.err .InvalidState),
    { beginning c with state := (beginning c).state.set_connection_state .Error })
  have set : (beginning c).protocol_engine.connected = true := (beginning_connected c).trans flag
  have shakes : wp (handshake c.config) (beginning c).protocol_engine fun r e =>
      r = .error (.err .InvalidState) ∧ e = (beginning c).protocol_engine := by
    rw [handshake, MqttProtocolEngine.connect_with_will, wp_bind, wp_get]
    simp only [set, if_true, wp_fail, and_self]
  refine connect_seq valid shakes (fun e err shook => ?_) (fun e action err shook => ?_) (fun e shook => ?_)
    fun e session_present shook => ?_
  · obtain ⟨same, rfl⟩ := shook
    cases same
    rfl
  · cases shook.1
  · cases shook.1
  · cases shook.1

/-- A connect: the configuration is not valid, the engine refuses, or it begins. -/
theorem connect_cases {c : MqttClient H P E} {Q : Except (Halt MqttError) Unit → MqttClient H P E → Prop}
    (invalid : c.config.validate ≠ .ok () → ∀ err, Q (.error (.err (.Config err))) c)
    (refused : c.config.validate = .ok () → c.protocol_engine.connected = true → Q (.error (.err .InvalidState))
      { beginning c with state := (beginning c).state.set_connection_state .Error })
    (begins : c.config.validate = .ok () → c.protocol_engine.connected = false → wp MqttClient.connect c Q) :
    wp MqttClient.connect c Q := by
  by_cases valid : c.config.validate = .ok ()
  · by_cases flag : c.protocol_engine.connected = true
    · rw [wp, connect_refused flag valid]
      exact refused valid flag
    · exact begins valid (Bool.eq_false_iff.mpr flag)
  · obtain ⟨err, ran⟩ := connect_invalid valid
    rw [wp, ran]
    exact invalid valid err

/-- A connect of an engine whose flag is set does not begin. -/
theorem connect_flagged {c : MqttClient H P E} (flag : c.protocol_engine.connected = true)
    {Q : Except (Halt MqttError) Unit → MqttClient H P E → Prop} (invalid : ∀ err, Q (.error (.err (.Config err))) c)
    (refused : Q (.error (.err .InvalidState))
      { beginning c with state := (beginning c).state.set_connection_state .Error }) : wp MqttClient.connect c Q := by
  refine connect_cases (fun _ => invalid) (fun _ _ => refused) fun _ free => ?_
  cases flag.symm.trans free

/-! ### Reconnecting -/

/-- A client that has waited before it connects again. -/
def waited (interval : UInt32) (c : MqttClient H P E) : MqttClient H P E := { c with
  protocol_engine := (exec (MqttProtocolEngine.delay interval) c.protocol_engine).2
  reconnect_attempt := c.reconnect_attempt + 1
  reconnect_interval_ms := interval }

/-- A reconnect: it makes no attempt, or it waits, is dropped there or connects. -/
theorem reconnect_seq {c : MqttClient H P E} {Q : Except (Halt MqttError) Unit → MqttClient H P E → Prop}
    (refused : (c.config.reconnect.enabled = true → ¬ AttemptsRemain c) → ∀ err, Q (.error (.err err)) c)
    (dropped : ∀ interval, Q (.error .cut) (waited interval c))
    (connects : c.config.reconnect.enabled = true → AttemptsRemain c → c.protocol_engine.world.delay 0 = true →
      ∀ interval, wp MqttClient.connect (waited interval c) Q) : wp MqttClient.reconnect c Q := by
  rw [MqttClient.reconnect, wp_bind, wp_get]
  by_cases enabled : c.config.reconnect.enabled = true
  swap
  · simp only [enabled, Bool.not_false, if_true]
    exact refused (fun yes => absurd yes enabled) _
  simp only [enabled, Bool.not_true, Bool.false_eq_true, if_false]
  split
  · rename_i exhausted
    refine refused (fun _ remain => ?_) _
    simp only [gt_iff_lt, ge_iff_le, Bool.and_eq_true, decide_eq_true_eq] at exhausted
    rcases remain with zero | less
    · rw [zero] at exhausted
      exact absurd exhausted.1 (by decide)
    · exact UInt32.not_le.mpr less exhausted.2
  rename_i some
  have remain : AttemptsRemain c := by
    simp only [gt_iff_lt, ge_iff_le, Bool.and_eq_true, decide_eq_true_eq, not_and, UInt32.not_le] at some
    by_cases zero : c.config.reconnect.max_attempts = 0
    · exact .inl zero
    · exact .inr (some (UInt32.pos_iff_ne_zero.mpr zero))
  generalize MqttClient.next_interval c.config.reconnect c.reconnect_interval_ms = interval
  rw [wp_bind, wp_modify, wp_bind, wp_zoom, MqttProtocolEngine.delay, wp_ofExec]
  by_cases elapsed : c.protocol_engine.world.delay 0 = true
  · simp only [MqttClient.engine_get, elapsed, if_true]
    exact connects enabled remain elapsed interval
  · simp only [MqttClient.engine_get, elapsed]
    exact dropped interval

/-- A poll: it reads if the engine is connected. If not, a connected client that may do so
    reconnects, and any other is disconnected by now. -/
theorem poll_seq {c : MqttClient H P E} {R : Except (Halt MqttError) Unit → MqttClient H P E → Prop}
    {Q : Except (Halt MqttError) (Option ClientEvent) → MqttClient H P E → Prop}
    (reads : c.protocol_engine.is_connected = true → wp MqttClient.poll_connected c Q)
    (reconnects : c.protocol_engine.is_connected = false → c.state.connection_state = .Connected →
      c.config.reconnect.enabled = true → wp MqttClient.reconnect c R)
    (failed : c.protocol_engine.is_connected = false → c.state.connection_state = .Connected →
      ∀ c' err, R (.error (.err err)) c' →
        Q (.ok (some .Disconnected)) { c' with state := c'.state.set_connection_state .Disconnected })
    (dropped : ∀ c', R (.error .cut) c' → Q (.error .cut) c')
    (returned : ∀ c', R (.ok ()) c' → wp MqttClient.poll_connected c' Q)
    (lost : c.protocol_engine.is_connected = false →
      ¬ (c.state.connection_state = .Connected ∧ c.config.reconnect.enabled = true) →
      c.state.connection_state ≠ .Disconnected →
      Q (.ok (some .Disconnected)) { c with state := c.state.set_connection_state .Disconnected })
    (gone : c.protocol_engine.is_connected = false → c.state.connection_state = .Disconnected → Q (.ok none) c) :
    wp MqttClient.poll c Q := by
  rw [MqttClient.poll, wp_bind, wp_get]
  by_cases up : c.protocol_engine.is_connected = true
  · simp only [up, Bool.not_true, Bool.false_eq_true, if_false]
    exact reads up
  have down : c.protocol_engine.is_connected = false := Bool.eq_false_iff.mpr up
  simp only [down, Bool.not_false, if_true, Bool.and_eq_true, decide_eq_true_eq]
  by_cases tries : c.state.connection_state = .Connected ∧ c.config.reconnect.enabled = true
  · simp only [tries, and_self, if_true]
    rw [wp_bind, wp_attempt]
    refine wp_mono (reconnects down tries.1 tries.2) fun r c' outcome => ?_
    rcases r with (err | _) | _
    · exact failed down tries.1 c' err outcome
    · exact dropped c' outcome
    · exact returned c' outcome
  · simp only [tries, if_false]
    by_cases settled : c.state.connection_state = .Disconnected
    · simp only [settled, ne_eq, not_true_eq_false, if_false]
      exact gone down settled
    · simp only [settled, ne_eq, not_false_eq_true, if_true]
      exact lost down tries settled

/-- Every attempt to reconnect ends with the engine's refusal, before anything is written. -/
theorem reconnect_refused {c : MqttClient H P E} (flag : c.protocol_engine.connected = true)
    (valid : c.config.validate = .ok ()) (enabled : c.config.reconnect.enabled = true) (remain : AttemptsRemain c)
    (waited : c.protocol_engine.world.delay 0 = true) : wp MqttClient.reconnect c fun r c' =>
      r = .error (.err .InvalidState) ∧ c'.state.connection_state = .Error ∧
        ∃ ms, c'.protocol_engine.log = c.protocol_engine.log ++ Event.delay ms ::
          if c.config.clean_session then [Event.cleared] else [] := by
  have more : ¬ (0 < c.config.reconnect.max_attempts ∧ c.config.reconnect.max_attempts ≤ c.reconnect_attempt) := by
    rcases remain with zero | less
    · simp [zero]
    · exact fun reached => UInt32.not_le.mpr less reached.2
  simp only [MqttClient.reconnect, wp_bind, wp_get, wp_modify, wp_zoom, MqttProtocolEngine.delay, wp_ofExec, enabled,
    Bool.not_true, Bool.false_eq_true, if_false, Bool.and_eq_true, decide_eq_true_eq, ge_iff_le, gt_iff_lt, more, waited,
    if_true, MqttClient.engine_get, MqttClient.engine_set]
  rw [wp, connect_refused (by exact flag) (by exact valid)]
  refine ⟨rfl, rfl, MqttClient.next_interval c.config.reconnect c.reconnect_interval_ms, ?_⟩
  change (beginning _).protocol_engine.log = _
  rw [beginning_log]
  exact List.append_assoc _ _ _

theorem poll_refused {c : MqttClient H P E} (flag : c.protocol_engine.connected = true)
    (valid : c.config.validate = .ok ()) (connected : c.state.connection_state = .Connected)
    (lost : c.protocol_engine.world.is_connected = false) (enabled : c.config.reconnect.enabled = true)
    (remain : AttemptsRemain c) (waited : c.protocol_engine.world.delay 0 = true) : wp MqttClient.poll c fun r c' =>
      r = .ok (some .Disconnected) ∧ c'.state.connection_state = .Disconnected ∧
        ∃ ms, c'.protocol_engine.log = c.protocol_engine.log ++ Event.delay ms ::
          if c.config.clean_session then [Event.cleared] else [] := by
  have down : c.protocol_engine.is_connected = false := by rw [MqttProtocolEngine.is_connected, lost, Bool.and_false]
  have refused := reconnect_refused flag valid enabled remain waited
  refine poll_seq (fun up => ?_) (fun _ _ _ => refused) (fun _ _ c' err outcome => ?_) (fun c' outcome => ?_)
    (fun c' outcome => ?_) (fun _ untried _ => ?_) fun _ settled => ?_
  · cases down.symm.trans up
  · exact ⟨rfl, rfl, outcome.2.2⟩
  · cases outcome.1
  · cases outcome.1
  · exact absurd ⟨connected, enabled⟩ untried
  · cases connected.symm.trans settled

end

section
variable [Codec V3.Packet MqttProtoError] [Codec V5.Packet ErrorV5] {v : Version}

/-- The surroundings let a CONNECT through and answer it: the transport is usable again. -/
structure Usable (world : World v.Packet v.Error) : Prop where
  delay : world.delay 0 = true
  write : ∀ n, ∃ taken, world.write n = some (.ok (taken + 1))
  flush : ∀ n, world.flush n = some (.ok ())
  accepted : ∃ packet session_present, world.read 0 = .packet packet ∧
    shape (H := v.Handler) packet = .connack session_present 0

/-- The call writes a CONNECT, returns without an error and leaves the client connected. -/
def Recovers (c : Client v) (call : Call v) : Prop :=
  (∃ frame clean, .queued frame ∈ c.events call ∧ shape (H := v.Handler) frame.packet = .connect clean) ∧
    (∃ reply, (c.call call).1 = .ok reply) ∧ (c.after call).state.connection_state = .Connected

/-- The engine of a connected client has its flag set, whatever became of the link. -/
theorem connected_flag {c : Client v} (reachable : c.Reachable) (connected : c.state.connection_state = .Connected) :
    c.protocol_engine.connected = true ∧ c.config.validate = .ok () := by
  refine reachable.invariant (I := fun config view => view.state = .Connected →
    view.connected = true ∧ config.validate = .ok ()) (fun _ _ state => by cases state) (fun _ _ _ holds => holds) ?_ connected
  intro config grant view act allowed holds
  cases act with
  | state new => exact allowed
  | link connected =>
    intro state
    cases connected with
    | true => exact ⟨rfl, (holds state).2⟩
    | false => exact absurd state (allowed rfl)
  | _ => exact holds

theorem connected_linked {c : Client v} (reachable : c.Reachable) (connected : c.state.connection_state = .Connected) :
    c.protocol_engine.connected = true := (connected_flag reachable connected).1

theorem no_connect_queued {c : Client v} {call : Call v} (ms : UInt32)
    (log : (c.after call).protocol_engine.log = c.protocol_engine.log ++ Event.delay ms ::
      if c.config.clean_session then [Event.cleared] else []) (frame : Frame v.Packet) : .queued frame ∉ c.events call := by
  rw [Client.events, log, List.drop_left]
  split <;> simp

/-- A client that was connected never recovers from the loss of its link. -/
theorem never_recovers {c : Client v} {world : World v.Packet v.Error} {op : Op v} (reachable : c.Reachable)
    (was_connected : c.state.connection_state = .Connected) (lost : world.is_connected = false)
    (enabled : c.config.reconnect.enabled = true) (remain : AttemptsRemain c) (usable : Usable world)
    (attempt : op = .reconnect ∨ op = .poll) : ¬ Recovers c ⟨op, world⟩ := by
  obtain ⟨flag, valid⟩ := connected_flag reachable was_connected
  rintro ⟨⟨frame, clean, queued, -⟩, -⟩
  rcases attempt with rfl | rfl
  · obtain ⟨-, -, ms, log⟩ := reconnect_refused (c := c.withWorld world) flag valid enabled remain usable.delay
    refine no_connect_queued ms ?_ frame queued
    rw [c.after_reconnect]
    exact log
  · obtain ⟨-, -, ms, log⟩ :=
      poll_refused (c := c.withWorld world) flag valid was_connected lost enabled remain usable.delay
    refine no_connect_queued ms ?_ frame queued
    rw [c.after_poll]
    exact log

end

/-! ### A run -/

section
local instance : Codec V3.Packet MqttProtoError := Wire.v3Codec
local instance : Codec V5.Packet ErrorV5 := Wire.v5Codec

/-- A new client whose CONNECT was accepted. -/
def accepted : Client .v3 := Client.run (MqttClient.new (.obliging true []) {} {})
  [⟨.connect, .obliging true [.Connack ⟨false, 0⟩]⟩]

/-- The link is down, and the transport would carry a CONNECT. -/
def link_down : World V3.Packet MqttProtoError := .obliging false [.Connack ⟨false, 0⟩]

theorem accepted_reachable : accepted.Reachable := ⟨_, (), _, _, rfl⟩
theorem link_down_usable : Usable (v := .v3) link_down :=
  ⟨rfl, fun _ => ⟨_, rfl⟩, fun _ => rfl, _, _, rfl, rfl⟩

theorem never_recovers_accepted : ¬ Recovers accepted ⟨.poll, link_down⟩ :=
  never_recovers accepted_reachable (by decide) rfl rfl (.inl rfl) link_down_usable (.inr rfl)

/-- An attempt that meets every assumption fails. -/
theorem recovery_fails : ¬ ∀ (c : Client .v3) (world : World V3.Packet MqttProtoError) (op : Op .v3), c.Reachable →
    c.state.connection_state = .Connected → world.is_connected = false → c.config.reconnect.enabled = true →
    AttemptsRemain c → Usable (v := .v3) world → (op = .reconnect ∨ op = .poll) → Recovers c ⟨op, world⟩ := by
  intro recovers
  obtain ⟨-, ⟨reply, returned⟩, -⟩ := recovers accepted link_down .reconnect accepted_reachable (by decide) rfl rfl
    (.inl rfl) link_down_usable (.inl rfl)
  have refused : (accepted.call ⟨.reconnect, link_down⟩).1 = .error (.err .InvalidState) := by decide
  rw [refused] at returned
  cases returned

end

end Masaka.Reconnect
