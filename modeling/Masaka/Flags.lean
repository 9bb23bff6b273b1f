import Masaka.Operations
import Masaka.Reconnect
import Masaka.Sweep

/-!
The two flags of a connection: the client's state, and what the engine remembers.
Only connecting, disconnecting and polling change them; every other operation, and
whatever sending does, leaves them, the timers of the connection and the packets
that arrived as they were.
-/
namespace Masaka.Flags
open Effect MqttProtocolHandler MqttProtocolEngine Sending
open MqttClient (engine engineSession)

variable {H P E α : Type}

/-- What an engine does without a packet arriving, and without connecting or disconnecting. -/
structure Quiet (e e' : MqttProtocolEngine H P E) : Prop where
  connected : e'.connected = e.connected
  interval : e'.keep_alive_interval_ms = e.keep_alive_interval_ms
  arrival : e'.last_packet_received_time = e.last_packet_received_time
  log : ∃ events, e'.log = e.log ++ events ∧ ∀ packet, .received packet ∉ events

theorem Quiet.refl (e : MqttProtocolEngine H P E) : Quiet e e := ⟨rfl, rfl, rfl, [], by simp⟩
theorem Quiet.trans {e e' e'' : MqttProtocolEngine H P E} (first : Quiet e e') (second : Quiet e' e'') : Quiet e e'' := by
  obtain ⟨events, log, none⟩ := first.log
  obtain ⟨more, log', none'⟩ := second.log
  refine ⟨second.connected.trans first.connected, second.interval.trans first.interval,
    second.arrival.trans first.arrival, events ++ more, by rw [log', log, List.append_assoc], ?_⟩
  intro packet member
  exact (List.mem_append.mp member).elim (none packet) (none' packet)

instance : Std.Refl (Quiet (H := H) (P := P) (E := E)) := ⟨Quiet.refl⟩
instance : IsTrans (MqttProtocolEngine H P E) Quiet := ⟨fun _ _ _ => Quiet.trans⟩

/-- One event, which is not an arrival. -/
theorem Quiet.event {e e' : MqttProtocolEngine H P E} (event : Event P) (log : e'.log = e.log ++ [event])
    (other : ∀ packet, event ≠ .received packet) (connected : e'.connected = e.connected)
    (interval : e'.keep_alive_interval_ms = e.keep_alive_interval_ms)
    (arrival : e'.last_packet_received_time = e.last_packet_received_time) : Quiet e e' := by
  refine ⟨connected, interval, arrival, [event], log, ?_⟩
  intro packet member
  exact other packet (List.mem_singleton.mp member).symm

/-- Nothing of it changes. -/
theorem Quiet.aside {e e' : MqttProtocolEngine H P E} (log : e'.log = e.log) (connected : e'.connected = e.connected)
    (interval : e'.keep_alive_interval_ms = e.keep_alive_interval_ms)
    (arrival : e'.last_packet_received_time = e.last_packet_received_time) : Quiet e e' :=
  ⟨connected, interval, arrival, [], by rw [log, List.append_nil], by simp⟩

/-- The session may change. -/
abbrev QuietS (s s' : MqttProtocolEngine H P E × InMemorySession) : Prop := Quiet s.1 s'.1

instance : Std.Refl (QuietS (H := H) (P := P) (E := E)) := ⟨fun s => Quiet.refl s.1⟩
instance : IsTrans (MqttProtocolEngine H P E × InMemorySession) QuietS := ⟨fun _ _ _ => Quiet.trans⟩

/-- The client's state, its configuration and all that is quiet in its engine are as before. -/
structure Steady (c c' : MqttClient H P E) : Prop where
  config : c'.config = c.config
  state : c'.state.connection_state = c.state.connection_state
  engine : Quiet c.protocol_engine c'.protocol_engine

instance : Std.Refl (Steady (H := H) (P := P) (E := E)) := ⟨fun _ => ⟨rfl, rfl, Quiet.refl _⟩⟩
instance : IsTrans (MqttClient H P E) Steady :=
  ⟨fun _ _ _ first second =>
    ⟨second.config.trans first.config, second.state.trans first.state, first.engine.trans second.engine⟩⟩

theorem ofEngine {m : EngineM H P E α} (quiet : Moves Quiet m) : Moves Steady (zoom engine m) :=
  quiet.zoom engine fun _ _ quiet => ⟨rfl, rfl, quiet⟩
theorem ofSession {m : SessionM H P E α} (quiet : Moves QuietS m) : Moves Steady (zoom engineSession m) :=
  quiet.zoom engineSession fun _ _ quiet => ⟨rfl, rfl, quiet⟩

theorem recording (event : Event P) (other : ∀ packet, event ≠ .received packet) :
    Moves Quiet (modify (record event) : EngineM H P E PUnit) := fun _ => .event event rfl other rfl rfl rfl

theorem clock : Moves Quiet (current_timestamp_ms : EngineM H P E Nat) := fun _ =>
  .event (.clock _) rfl (by simp) rfl rfl rfl

theorem waiting (ms : UInt32) : Moves Quiet (delay ms : EngineM H P E Unit) := fun _ =>
  .event (.delay ms) rfl (by simp) rfl rfl rfl

/-- The operations that leave the connection as it is are steady. -/
theorem steady_sweep : Sweep (H := H) (E := E) (fun e => e.world.read) (fun e : MqttProtocolEngine H P E => e.log)
    (fun _ m => Moves Quiet m) (fun _ m => Moves QuietS m) fun _ m => Moves Steady m where
  ofE := Moves.compositional _ _
  ofS := Moves.compositional _ _
  ofC := Moves.compositional _ _
  inEngine quiet := quiet.zoom first fun _ _ => id
  ofEngine := ofEngine
  ofSession := ofSession
  write bytes := fun _ => .event (.write _ _) rfl (by simp) rfl rfl rfl
  flush := fun _ => .event (.flush _) rfl (by simp) rfl rfl rfl
  clock := clock
  sent_time _ := fun _ => .aside rfl rfl rfl rfl
  dequeued _ := fun _ => .aside rfl rfl rfl rfl
  queued frame := fun _ => .event (.queued frame) rfl (by simp) rfl rfl rfl
  sent frame := recording (.sent frame) (by simp)
  handed_out pid := recording (.handed_out pid) (by simp)
  accepted pid := recording (.accepted pid) (by simp)
  handler _ := fun _ => .aside rfl rfl rfl rfl
  onSession _ := fun s => Quiet.refl s.1
  counting := fun _ => ⟨rfl, rfl, Quiet.refl _⟩
  adding _ := fun _ => ⟨rfl, rfl, Quiet.refl _⟩
  removing _ := fun _ => ⟨rfl, rfl, Quiet.refl _⟩
  popping := fun _ => ⟨rfl, rfl, Quiet.refl _⟩

/-! ### Connecting and disconnecting -/

variable [MqttProtocolHandler H P E]

/-- What the two layers say of the connection. -/
def flags (c : MqttClient H P E) : ConnectionState × Bool := (c.state.connection_state, c.protocol_engine.connected)

omit [MqttProtocolHandler H P E] in
theorem Steady.flags {c c' : MqttClient H P E} (steady : Steady c c') : flags c' = flags c := by
  rw [Flags.flags, steady.state, steady.engine.connected]
  rfl

/-- The handshake of an engine that is not connected sets the flag exactly if the CONNECT is accepted. -/
theorem connect_with_will_flag (id : String) (user : Option String) (pass : Option Bytes) (alive : UInt16) (clean : Bool)
    (topic : Option TopicName) (message : Option Bytes) (qos : Option QoS) (retain : Bool) {e : MqttProtocolEngine H P E}
    (free : e.connected = false) :
    wp (connect_with_will id user pass alive clean topic message qos retain) e fun r e' =>
      e'.connected = r.isOk ∧ ∀ action, r = .ok action → ∃ session_present, action = .ConnectAck session_present 0 := by
  have failed : ∀ (h : Halt MqttError) (e' : MqttProtocolEngine H P E), e'.connected = false →
      e'.connected = (.error h : Except (Halt MqttError) PacketAction).isOk ∧
        ∀ action, (.error h : Except (Halt MqttError) PacketAction) = .ok action →
          ∃ session_present, action = .ConnectAck session_present 0 :=
    fun h e' free => ⟨free, fun action same => absurd same (error_ne_ok h action)⟩
  rw [connect_with_will, wp_bind, wp_get]
  simp only [free, Bool.false_eq_true, if_false]
  rw [wp_bind, wp_modify]
  refine wp_ofExcept_bind (fun packet _ => ?_) fun err _ => failed _ _ free
  refine wp_seq ((steady_sweep.send_packet packet).wp _) (fun _ e₁ sent => ?_) fun h e₁ sent => ?_
  swap
  · exact failed h e₁ (sent.connected.trans free)
  refine wp_seq (receive_packet_unlogged_spec e₁) (fun action e₂ waited => ?_) fun h e₂ waited => ?_
  · have unset : e₂.connected = false := waited.connected.trans (sent.connected.trans free)
    cases action with
    | ConnectAck session_present return_code =>
      by_cases accepted : return_code = 0
      · simp only [accepted, if_true]
        exact ⟨rfl, fun action returned => ⟨session_present, (Except.ok.inj returned).symm⟩⟩
      · simp only [accepted, if_false]
        exact failed _ e₂ unset
    | _ => exact failed _ e₂ unset
  · exact failed h e₂ (waited.connected.trans (sent.connected.trans free))

/-- How a connect ends. -/
inductive Connects (c : MqttClient H P E) : Except (Halt MqttError) Unit → ConnectionState × Bool → Prop where
  | invalid {err : MqttError} : c.config.validate ≠ .ok () → Connects c (.error (.err err)) (flags c)
  | refused {err : MqttError} : c.config.validate = .ok () → c.protocol_engine.connected = true →
      Connects c (.error (.err err)) (.Error, true)
  | failed {err : MqttError} : c.protocol_engine.connected = false → Connects c (.error (.err err)) (.Error, false)
  | dropped : c.protocol_engine.connected = false → Connects c (.error .cut) (.Connecting, false)
  | accepted {r : Except (Halt MqttError) Unit} : c.config.validate = .ok () → c.protocol_engine.connected = false →
      Connects c r (.Connected, true)

theorem connect_flags (c : MqttClient H P E) : wp MqttClient.connect c fun r c' => Connects c r (flags c') := by
  refine Reconnect.connect_cases (fun wrong err => .invalid wrong) (fun valid flag => ?_) fun valid free => ?_
  · have same : (Reconnect.beginning c).protocol_engine.connected = true := (Reconnect.beginning_connected c).trans flag
    change Connects c (.error (.err .InvalidState)) (.Error, (Reconnect.beginning c).protocol_engine.connected)
    rw [same]
    exact .refused valid flag
  have free' : (Reconnect.beginning c).protocol_engine.connected = false := (Reconnect.beginning_connected c).trans free
  refine Reconnect.connect_seq valid (connect_with_will_flag _ _ _ _ _ _ _ _ _ free') (fun e err shook => ?_)
    (fun e action err shook other => ?_) (fun e shook => ?_) fun e session_present shook => ?_
  · change Connects c (.error (.err err)) (.Error, e.connected)
    rw [shook.1]
    exact .failed free
  · obtain ⟨session_present, same⟩ := shook.2 action rfl
    exact absurd same (other session_present)
  · change Connects c (.error .cut) ((Reconnect.beginning c).state.connection_state, e.connected)
    rw [shook.1]
    exact .dropped free
  · have resent : Moves Steady (onlyIf (session_present && !c.config.clean_session) MqttClient.resend_pending_messages :
        ClientM H P E Unit) := Moves.onlyIf fun _ => steady_sweep.resend_pending_messages
    refine wp_mono (resent.wp _) fun r c' steady => ?_
    rw [steady.flags]
    change Connects c r (.Connected, e.connected)
    rw [shook.1]
    exact .accepted valid free

omit [MqttProtocolHandler H P E] in
/-- What has not changed the flags and the configuration does not matter to a connect. -/
theorem Connects.of_steady {c c₁ : MqttClient H P E} {r : Except (Halt MqttError) Unit} {after : ConnectionState × Bool}
    (steady : Steady c c₁) (connects : Connects c₁ r after) : Connects c r after := by
  have config := steady.config
  have link := steady.engine.connected
  cases connects with
  | invalid wrong => rw [steady.flags]; exact .invalid (config ▸ wrong)
  | refused valid flag => exact .refused (config ▸ valid) (link ▸ flag)
  | failed free => exact .failed (link ▸ free)
  | dropped free => exact .dropped (link ▸ free)
  | accepted valid free => exact .accepted (config ▸ valid) (link ▸ free)

/-- `reconnect` gets as far as a connect. -/
def Attempts (c : MqttClient H P E) : Prop :=
  c.config.reconnect.enabled = true ∧ Reconnect.AttemptsRemain c ∧ c.protocol_engine.world.delay 0 = true

/-- How a reconnect ends. -/
inductive Reconnects (c : MqttClient H P E) : Except (Halt MqttError) Unit → ConnectionState × Bool → Prop where
  | refused {err : MqttError} : (c.config.reconnect.enabled = true → ¬ Reconnect.AttemptsRemain c) →
      Reconnects c (.error (.err err)) (flags c)
  | dropped : Reconnects c (.error .cut) (flags c)
  | connects {r : Except (Halt MqttError) Unit} {after : ConnectionState × Bool} : Attempts c → Connects c r after →
      Reconnects c r after

theorem reconnect_flags (c : MqttClient H P E) : wp MqttClient.reconnect c fun r c' => Reconnects c r (flags c') := by
  refine Reconnect.reconnect_seq (fun none err => .refused none) (fun interval => .dropped)
    fun enabled remain elapsed interval => ?_
  refine wp_mono (connect_flags _) fun r c' connects => .connects ⟨enabled, remain, elapsed⟩ (connects.of_steady ?_)
  exact ⟨rfl, rfl, .event (.delay interval) rfl (by simp) rfl rfl rfl⟩

/-- A disconnect of a client that is disconnected does nothing. -/
theorem disconnect_over {c : MqttClient H P E} (gone : c.state.connection_state = .Disconnected) :
    exec MqttClient.disconnect c = (.ok (), c) := by
  rw [MqttClient.disconnect, exec_bind, exec_get]
  simp only [gone, if_true]
  rfl

/-- A client that disconnects, with its engine as it is by now. -/
def leaving (e : MqttProtocolEngine H P E) (c : MqttClient H P E) : MqttClient H P E := { c with
  protocol_engine := e, state := c.state.set_connection_state .Disconnecting }
/-- A client that has disconnected. -/
def left (e : MqttProtocolEngine H P E) (c : MqttClient H P E) : MqttClient H P E := { leaving e c with
  state := (leaving e c).state.set_connection_state .Disconnected }
/-- An engine that has closed its transport. -/
def closing (e : MqttProtocolEngine H P E) : MqttProtocolEngine H P E := { e with
  world := { e.world with close := fun n => e.world.close (n + 1) }
  log := e.log ++ [.close (e.world.close 0)]
  connected := false }

/-- A disconnect of a client that is not disconnected: its engine is free, the DISCONNECT
    is not sent, or it is sent and the transport is closed, well or not. -/
theorem disconnect_seq {c : MqttClient H P E} (idle : c.Idle) (running : c.state.connection_state ≠ .Disconnected)
    {Q : Except (Halt MqttError) Unit → MqttClient H P E → Prop}
    (free : c.protocol_engine.connected = false → Q (.ok ()) (left c.protocol_engine c))
    (failed : c.protocol_engine.connected = true → ∀ e err,
      Sent (create_disconnect_packet c.protocol_engine.handler) c.protocol_engine (.error (.err err)) e →
        Q (.error (.err err)) (left e c))
    (dropped : c.protocol_engine.connected = true → ∀ e,
      Sent (create_disconnect_packet c.protocol_engine.handler) c.protocol_engine (.error .cut) e →
        Q (.error .cut) (leaving e c))
    (closed : c.protocol_engine.connected = true → ∀ e,
      Sent (create_disconnect_packet c.protocol_engine.handler) c.protocol_engine (.ok ()) e →
        Q (.error .cut) (leaving (closing e) c) ∧ ∀ r, r ≠ .error .cut → Q r (left (closing e) c)) :
    wp MqttClient.disconnect c Q := by
  rw [MqttClient.disconnect, wp_bind, wp_get]
  simp only [running, if_false]
  rw [wp_bind, MqttClient.set_connection_state, wp_modify, wp_bind, wp_attempt, wp_zoom, disconnect, wp_bind, wp_get]
  by_cases flag : c.protocol_engine.connected = true
  swap
  · simp only [MqttClient.engine_get, flag, Bool.not_false, if_true]
    exact free (Bool.eq_false_iff.mpr flag)
  simp only [MqttClient.engine_get, flag, Bool.not_true, Bool.false_eq_true, if_false]
  rw [wp_bind]
  refine wp_mono (send_packet_spec (e := c.protocol_engine) _ idle) fun r e sent => ?_
  rcases r with (err | _) | _
  · exact failed flag e err sent
  · exact dropped flag e sent
  · obtain ⟨cut, ended⟩ := closed flag e sent
    simp only [closing] at cut ended
    simp only [wp_bind, wp_modify, close, wp_ofExec]
    rcases answer : e.world.close 0 with _ | err | _ <;> rw [answer] at cut ended
    · exact cut
    · exact ended _ (by simp)
    · exact ended _ (by simp)

/-- How a disconnect ends. -/
inductive Disconnects (c : MqttClient H P E) : Except (Halt MqttError) Unit → ConnectionState × Bool → Prop where
  | nothing : c.state.connection_state = .Disconnected → Disconnects c (.ok ()) (flags c)
  | unsent {err : MqttError} : c.state.connection_state ≠ .Disconnected → c.protocol_engine.connected = true →
      Unsendable c.protocol_engine (create_disconnect_packet c.protocol_engine.handler) →
      Disconnects c (.error (.err err)) (.Disconnected, true)
  | closed {r : Except (Halt MqttError) Unit} : r ≠ .error .cut → Disconnects c r (.Disconnected, false)
  | dropped {connected : Bool} : c.state.connection_state ≠ .Disconnected →
      Disconnects c (.error .cut) (.Disconnecting, connected)

theorem disconnect_flags {c : MqttClient H P E} (idle : c.Idle) :
    wp MqttClient.disconnect c fun r c' => Disconnects c r (flags c') := by
  by_cases running : c.state.connection_state = .Disconnected
  · rw [wp, disconnect_over running]
    exact .nothing running
  refine disconnect_seq idle running (fun free => ?_) (fun flag e err sent => ?_) (fun _ _ _ => .dropped running)
    fun _ _ _ => ⟨.dropped running, fun r finished => .closed finished⟩
  · change Disconnects c (.ok ()) (.Disconnected, c.protocol_engine.connected)
    rw [free]
    exact .closed (by simp)
  · change Disconnects c (.error (.err err)) (.Disconnected, e.connected)
    rw [sent.frame.1.trans flag]
    exact .unsent running flag (sent.fails_iff.mp ⟨err, rfl⟩)

/-! ### Polling -/

/-- The packet that an action is answered with. -/
def reply_to (h : H) (s : InMemorySession) : PacketAction → Option (Except E P)
  | .PublishRec pid => if pid ∈ s.pending_publishes then some (create_pubrel_packet h pid) else none
  | .PublishRelease pid => some (create_pubcomp_packet h pid)
  | .PublishReceived _ .Level1 _ _ (some pid) => some (create_puback_packet h pid)
  | .PublishReceived _ .Level2 _ _ (some pid) => some (create_pubrec_packet h pid)
  | _ => none

/-- The transport fails or sends what is no packet for a client, or the reply cannot be sent. -/
def ReceiveFails (e : MqttProtocolEngine H P E) (s : InMemorySession) : Prop :=
  (∃ err, received e = .error (.err err)) ∨ ∃ action packet, received e = .ok action ∧
    reply_to e.handler s action = some (.ok packet) ∧ Unsendable e packet

theorem unsendable_waited {e e' : MqttProtocolEngine H P E} {r : Except (Halt MqttError) PacketAction}
    (waited : Waited e r e') (packet : P) : Unsendable e' packet ↔ Unsendable e packet := by
  simp only [Unsendable, waited.handler, waited.write, waited.flush]

/-- A poll of a client whose engine is not connected reads nothing. -/
theorem poll_unlinked {c : MqttClient H P E} (state : c.state.connection_state ≠ .Connected)
    (down : c.protocol_engine.connected = false) :
    wp MqttClient.poll c fun r c' => r.isOk = true ∧ c'.protocol_engine = c.protocol_engine := by
  rw [MqttClient.poll, wp_bind, wp_get]
  simp only [is_connected, down, Bool.false_and, Bool.not_false, if_true, state, decide_false, Bool.false_eq_true,
    if_false]
  split <;> exact ⟨rfl, rfl⟩

/-- A poll of a client whose link and engine are up. -/
theorem poll_linked {c : MqttClient H P E} (up : c.protocol_engine.is_connected = true) :
    exec MqttClient.poll c = exec MqttClient.poll_connected c := by
  rw [MqttClient.poll, exec_bind, exec_get]
  simp only [up, Bool.not_true, Bool.false_eq_true, if_false]

variable [LawfulHandler H P E]

/-- Answering fails only if there is a reply and it cannot be sent. -/
theorem acknowledge_fails (action : PacketAction) {e : MqttProtocolEngine H P E} (idle : e.write_queue = [])
    (s : InMemorySession) : wp (MqttProtocolEngine.acknowledge action) (e, s) fun r _ => ∀ err, r = .error (.err err) →
      ∃ packet, reply_to e.handler s action = some (.ok packet) ∧ Unsendable e packet := by
  have replying : ∀ (create : H → Except E P), (∃ packet, create e.handler = .ok packet) →
      reply_to e.handler s action = some (create e.handler) →
      wp (get >>= fun s => ofExcept (into H) (create s.1.handler) >>= fun packet =>
        zoom first (MqttProtocolEngine.send_packet packet) : SessionM H P E Unit) (e, s) fun r _ =>
          ∀ err, r = .error (.err err) →
            ∃ packet, reply_to e.handler s action = some (.ok packet) ∧ Unsendable e packet := by
    intro create made replies
    obtain ⟨packet, created⟩ := made
    rw [wp_bind, wp_get]
    simp only [created, ofExcept_ok, pure_bind, wp_zoom]
    refine wp_mono (send_packet_spec (e := e) packet idle) fun r _ sent err failed => ⟨packet, ?_, ?_⟩
    · rw [replies, created]
    · exact sent.fails_iff.mp ⟨err, failed⟩
  cases action with
  | PublishRec pid =>
    simp only [MqttProtocolEngine.acknowledge, wp_bind, MqttProtocolEngine.onSession, wp_ofExec,
      SessionState.complete_outgoing_publish]
    cases stored : s.pending_publishes.lookup pid with
    | none => exact fun err failed => by cases failed
    | some message =>
      have pending : pid ∈ s.pending_publishes := Tables.mem_iff_lookup.mpr ⟨message, stored⟩
      obtain ⟨packet, created, -⟩ := LawfulHandler.pubrel e.handler pid
      simp only [wp_bind, wp_get, created, ofExcept_ok, wp_pure, wp_zoom]
      refine wp_mono (send_packet_spec (e := e) packet idle) fun r e' sent => ?_
      cases r with
      | error h =>
        intro err failed
        exact ⟨packet, by simp [reply_to, pending, created], sent.fails_iff.mp ⟨err, failed⟩⟩
      | ok _ => exact fun err failed => by cases failed
  | PublishRelease pid =>
    exact replying (fun h => create_pubcomp_packet h pid) ((LawfulHandler.pubcomp _ pid).imp fun _ => And.left) rfl
  | PublishReceived topic qos retain payload pid =>
    cases pid with
    | none => cases qos <;> exact fun err failed => by cases failed
    | some pid =>
      cases qos with
      | Level0 => exact fun err failed => by cases failed
      | Level1 =>
        exact replying (fun h => create_puback_packet h pid) ((LawfulHandler.puback _ pid).imp fun _ => And.left) rfl
      | Level2 =>
        exact replying (fun h => create_pubrec_packet h pid) ((LawfulHandler.pubrec _ pid).imp fun _ => And.left) rfl
  | PublishAck _ | PublishComplete _ | ConnectAck _ _ | SubscribeAck _ _ | UnsubscribeAck _ | PingResponse | None =>
    exact fun err failed => by cases failed

/-- Waiting for a packet and answering it leaves the flag, and fails as described. -/
theorem receive_packet_fails {e : MqttProtocolEngine H P E} (idle : e.write_queue = []) (s : InMemorySession) :
    wp receive_packet (e, s) fun r s' => s'.1.connected = e.connected ∧
      ∀ err, r = .error (.err err) → ReceiveFails e s := by
  rw [receive_packet, wp_bind, wp_zoom]
  refine wp_mono (receive_packet_unlogged_spec e) fun r e' waited => ?_
  cases r with
  | error h =>
    refine ⟨waited.connected, fun err failed => .inl ⟨err, ?_⟩⟩
    rw [← waited.outcome, Except.error.inj failed]
  | ok action =>
    dsimp only
    rw [wp_bind]
    refine wp_mono (wp_and ((steady_sweep.acknowledge action).wp _) (acknowledge_fails action (waited.queue.trans idle) s))
      fun r s' outcome => ?_
    obtain ⟨quiet, fails⟩ := outcome
    have link : s'.1.connected = e.connected := quiet.connected.trans waited.connected
    cases r with
    | ok _ => exact ⟨link, fun err failed => by cases failed⟩
    | error h =>
      refine ⟨link, fun err failed => .inr ?_⟩
      obtain ⟨packet, replies, unsendable⟩ := fails err (congrArg Except.error (Except.error.inj failed))
      refine ⟨action, packet, waited.outcome.symm, ?_, (unsendable_waited waited packet).mp unsendable⟩
      rw [← replies]
      exact congrArg (reply_to · s action) waited.handler.symm

theorem receive_flags {c : MqttClient H P E} (idle : c.Idle) : wp MqttClient.receive c fun _ c' => flags c' = flags c ∨
    ReceiveFails c.protocol_engine c.session_state ∧ flags c' = (.Error, c.protocol_engine.connected) := by
  rw [MqttClient.receive, wp_bind, wp_attempt, wp_zoom]
  refine wp_mono (receive_packet_fails idle c.session_state) fun r s outcome => ?_
  obtain ⟨link, fails⟩ := outcome
  have same : flags (engineSession.set s c) = flags c := congrArg (Prod.mk c.state.connection_state) link
  rcases r with (err | _) | action
  · right
    exact ⟨fails err rfl, congrArg (Prod.mk ConnectionState.Error) link⟩
  · exact .inl same
  · left
    have acting : Moves Steady (MqttClient.handle_packet_action (H := H) (P := P) (E := E) action) :=
      steady_sweep.handle_packet_action action
    exact (acting _).flags.trans same

/-- What a poll of a connected client does before it waits for a packet, unless the timeout has passed. -/
def until_receive : ClientM H P E Unit := do
  let current_time ← zoom engine current_timestamp_ms
  let c ← get
  onlyIf (c.protocol_engine.should_send_keep_alive current_time) MqttClient.ping
  zoom engineSession (MqttProtocolEngine.handle_retries current_time)

/-- A poll of a connected client finds the timeout passed, or comes to wait for a packet, and fails there. -/
def FailsToReceive (c : MqttClient H P E) : Prop :=
  c.protocol_engine.is_connection_timeout (c.protocol_engine.world.now 0) = true ∨
    ∃ c', exec until_receive c = (.ok (), c') ∧ ReceiveFails c'.protocol_engine c'.session_state

/-- A poll of a client whose link is down gives the connection up. -/
def LosesLink (c : MqttClient H P E) : Prop :=
  if c.state.connection_state = .Connected ∧ c.config.reconnect.enabled = true then
    Reconnect.AttemptsRemain c → c.protocol_engine.world.delay 0 = true
  else c.state.connection_state ≠ .Disconnected

omit [LawfulHandler H P E] in
theorem until_receive_steady : Moves Steady (until_receive : ClientM H P E Unit) :=
  (ofEngine clock).bind fun _ => Moves.get.bind fun _ => Moves.bind (Moves.onlyIf fun _ => steady_sweep.ping) fun _ =>
    ofSession (steady_sweep.handle_retries _)

theorem until_receive_idle {c : MqttClient H P E} (idle : c.Idle) : (exec until_receive c).2.Idle := by
  let grant : Grant := ⟨none, [], [], true⟩
  have acting : Operations.Acting grant (until_receive : ClientM H P E Unit) :=
    Operations.clock.bind fun _ => Moves.get.bind fun _ => Moves.bind (Moves.onlyIf fun _ => Operations.ping) fun _ =>
      Operations.handle_retries _
  exact (acting c idle).1

omit [LawfulHandler H P E] in
/-- A poll of a connected client, in its two parts. -/
theorem poll_connected_eq (c : MqttClient H P E) : exec MqttClient.poll_connected c =
    if c.protocol_engine.is_connection_timeout (c.protocol_engine.world.now 0) = true then
      exec (do MqttClient.set_connection_state .Error; fail (.Transport .Timeout))
        (exec (zoom engine current_timestamp_ms) c).2
    else exec (until_receive >>= fun _ => MqttClient.receive) c := by
  have clocked : exec (zoom engine current_timestamp_ms) c =
      (.ok (c.protocol_engine.world.now 0), (exec (zoom engine current_timestamp_ms) c).2) := rfl
  rw [MqttClient.poll_connected, exec_bind, clocked]
  simp only []
  rw [exec_bind, exec_get]
  simp only []
  change exec (if c.protocol_engine.is_connection_timeout (c.protocol_engine.world.now 0) = true then _ else _) _ = _
  split
  · rfl
  · simp only [until_receive, bind_assoc]
    conv_rhs => rw [exec_bind, clocked]
    conv_rhs => simp only []; rw [exec_bind, exec_get]

theorem poll_connected_flags {c : MqttClient H P E} (idle : c.Idle) :
    wp MqttClient.poll_connected c fun _ c' => flags c' = flags c ∨
      FailsToReceive c ∧ flags c' = (.Error, c.protocol_engine.connected) := by
  rw [wp, poll_connected_eq]
  split
  · rename_i late
    exact .inr ⟨.inl late, rfl⟩
  change wp (until_receive >>= fun _ => MqttClient.receive) c fun _ c' => flags c' = flags c ∨
    FailsToReceive c ∧ flags c' = (.Error, c.protocol_engine.connected)
  rw [wp_bind]
  have steady := until_receive_steady c
  have idle' := until_receive_idle idle
  rw [wp]
  rcases ran : exec until_receive c with ⟨h | _, c'⟩
  · rw [ran] at steady
    exact .inl steady.flags
  · rw [ran] at steady idle'
    refine wp_mono (receive_flags idle') fun r c'' received => ?_
    rw [steady.flags, steady.engine.connected] at received
    exact received.imp_right fun fails => ⟨.inr ⟨c', ran, fails.1⟩, fails.2⟩

/-- How a poll ends, if the engine of a connected client has its flag set. -/
theorem poll_flags {c : MqttClient H P E} (idle : c.Idle)
    (linked : c.state.connection_state = .Connected → c.protocol_engine.connected = true) :
    wp MqttClient.poll c fun _ c' => flags c' = flags c ∨
      c.protocol_engine.is_connected = true ∧ FailsToReceive c ∧ flags c' = (.Error, c.protocol_engine.connected) ∨
      c.protocol_engine.is_connected = false ∧ LosesLink c ∧ flags c' = (.Disconnected, c.protocol_engine.connected) := by
  -- The engine refuses to connect, because its flag is set.
  have refused : c.state.connection_state = .Connected → c.config.reconnect.enabled = true →
      wp MqttClient.reconnect c fun r c' => r = .error .cut ∧ flags c' = flags c ∨ (∃ err, r = .error (.err err)) ∧
        LosesLink c ∧ c'.protocol_engine.connected = c.protocol_engine.connected := by
    intro state enabled
    have flag := linked state
    refine wp_mono (reconnect_flags c) fun r c' ended => ?_
    rw [LosesLink, if_pos ⟨state, enabled⟩]
    generalize after : flags c' = last at ended
    have connected : c'.protocol_engine.connected = last.2 := congrArg Prod.snd after
    cases ended with
    | refused none => exact .inr ⟨⟨_, rfl⟩, fun remain => absurd remain (none enabled), connected⟩
    | dropped => exact .inl ⟨rfl, rfl⟩
    | connects attempts connects =>
      right
      cases connects with
      | invalid _ => exact ⟨⟨_, rfl⟩, fun _ => attempts.2.2, connected⟩
      | refused _ _ => exact ⟨⟨_, rfl⟩, fun _ => attempts.2.2, connected.trans flag.symm⟩
      | failed free | dropped free | accepted _ free => cases flag.symm.trans free
  refine Reconnect.poll_seq (fun up => ?_) (fun _ => refused) (fun down _ c' err outcome => ?_) (fun c' outcome => ?_)
    (fun c' outcome => ?_) (fun down untried running => ?_) fun _ _ => ?_
  · exact wp_mono (poll_connected_flags idle) fun _ _ ended => ended.imp_right fun failed => .inl ⟨up, failed⟩
  · rcases outcome with ⟨stopped, -⟩ | ⟨-, loses, connected⟩
    · cases stopped
    · exact .inr (.inr ⟨down, loses, congrArg (Prod.mk ConnectionState.Disconnected) connected⟩)
  · rcases outcome with ⟨-, same⟩ | ⟨⟨err, stopped⟩, -⟩
    · exact .inl same
    · cases stopped
  · rcases outcome with ⟨stopped, -⟩ | ⟨⟨err, stopped⟩, -⟩
    · cases stopped
    · cases stopped
  · refine .inr (.inr ⟨down, ?_, rfl⟩)
    rw [LosesLink, if_neg untried]
    exact running
  · exact .inl rfl

/-! ### The public operations -/

section
variable [Codec V5.Packet ErrorV5] {v : Version}

/-- The operation connects, disconnects or polls. -/
def links : Op v → Bool
  | .connect | .reconnect | .disconnect | .poll => true
  | _ => false

omit [Codec V5.Packet ErrorV5] in
theorem calm_op {op : Op v} (calm : links op = false) :
    op ≠ .connect ∧ op ≠ .reconnect ∧ op ≠ .disconnect ∧ op ≠ .poll := by
  refine ⟨?_, ?_, ?_, ?_⟩ <;>
    · rintro rfl
      cases calm

variable [Codec V3.Packet MqttProtoError]

/-- The other operations leave the connection as it is. -/
theorem perform_steady {op : Op v} (calm : links op = false) : Moves Steady op.perform := steady_sweep.calm op (calm_op calm)

end

end Masaka.Flags
