import Masaka.Reconnect
import Masaka.Wire

/-!
Resuming a session. The pending messages are sent again, one by one; the PUBRELs
that are pending as well are not.
-/
namespace Masaka.Resume
open Effect Tables Runs MqttProtocolHandler LawfulHandler MqttProtocolEngine Sending

section
variable {H P E : Type}

/-- A packet has arrived. -/
def arrives : Event P → Bool
  | .received _ => true
  | _ => false

/-- The events after the arrival of the first packet. -/
def after_arrival (events : List (Event P)) : List (Event P) := (events.dropWhile fun event => !arrives event).tail

theorem after_arrival_split {before after : List (Event P)} {packet : P} (none : ∀ event ∈ before, arrives event = false) :
    after_arrival (before ++ .received packet :: after) = after := by
  rw [after_arrival, List.dropWhile_append_of_pos (by simpa using none)]
  rfl

/-- The level of a message, with its identifier. -/
def carrying (pid : Pid) : QoS → QosPid
  | .Level0 => .Level0
  | .Level1 => .Level1 pid
  | .Level2 => .Level2 pid

theorem carrying_eq {qos : QoS} {pid : Pid} {qp : QosPid} (carried : qos_pid qos (some pid) = .ok qp) :
    qp = carrying pid qos := by
  cases qos <;> cases carried <;> rfl

/-- The PUBLISH that sends a stored message again. -/
def again (entry : Pid × InflightMessage) : Shape :=
  .publish ⟨true, carrying entry.1 entry.2.qos, entry.2.retain, entry.2.topic, entry.2.payload⟩

variable [MqttProtocolHandler H P E] [LawfulHandler H P E]

/-- The loop over the messages to send again, if it succeeds. -/
theorem resend_spec (entries : List (Pid × InflightMessage)) {c : MqttClient H P E} (idle : c.Idle) :
    wp (entries.forM MqttClient.resend) c fun r c' => r = .ok ⟨⟩ → c'.session_state = c.session_state ∧
      ∃ packets events, c'.protocol_engine.log = c.protocol_engine.log ++ events ∧ Wrote packets events ∧
        packets.map (shape (H := H)) = entries.map again := by
  induction entries generalizing c with
  | nil => exact fun _ => ⟨rfl, [], [], (List.append_nil _).symm, .nil, rfl⟩
  | cons entry rest ih =>
    change wp (MqttClient.resend entry >>= fun _ => rest.forM MqttClient.resend) c _
    rw [wp_bind, MqttClient.resend, wp_bind, wp_get]
    simp only [wp_bind, wp_ofExcept]
    cases created : create_publish_packet c.protocol_engine.handler entry.2.topic entry.2.qos entry.2.retain
      entry.2.payload (some entry.1) true with
    | error err => exact fun returned => by cases returned
    | ok packet =>
      simp only [wp_zoom]
      refine wp_mono (send_packet_spec packet idle) fun r e sent => ?_
      cases r with
      | error halt => exact fun returned => by cases returned
      | ok _ =>
        cases sent with
        | encoded encoded transmission =>
          refine wp_mono (ih (by exact rfl)) fun r c' next returned => ?_
          obtain ⟨session, packets, events, log, wrote, shapes⟩ := next returned
          refine ⟨session, packet :: packets, _ ++ events, ?_, (transmission_wrote transmission).append wrote, ?_⟩
          · rw [log]
            exact List.append_assoc _ _ _
          · obtain ⟨qp, carried, shaped⟩ := LawfulHandler.publish _ _ _ _ _ _ _ _ created
            rw [List.map_cons, List.map_cons, shapes, shaped, carrying_eq carried, again]

omit [LawfulHandler H P E] in
/-- The handshake of a connect that is accepted. -/
theorem connect_with_will_spec (id : String) (user : Option String) (pass : Option Bytes) (alive : UInt16) (clean : Bool)
    (topic : Option TopicName) (message : Option Bytes) (qos : Option QoS) (retain : Bool) {e : MqttProtocolEngine H P E}
    (idle : e.write_queue = []) :
    wp (MqttProtocolEngine.connect_with_will id user pass alive clean topic message qos retain) e fun r e' =>
      ∀ action, r = .ok action → e'.write_queue = [] ∧ ∃ before packet now,
        e'.log = e.log ++ before ++ [.received packet, .clock now] ∧
        (∀ event ∈ before, arrives event = false) ∧ e.world.read 0 = .packet packet ∧
        handle_packet e.handler packet = .ok action ∧ ∃ session_present, action = .ConnectAck session_present 0 := by
  rw [MqttProtocolEngine.connect_with_will, wp_bind, wp_get]
  by_cases refused : e.connected = true
  · simp only [refused, if_true]
    exact fun _ returned => by cases returned
  simp only [refused, Bool.false_eq_true, if_false]
  rw [wp_bind, wp_modify]
  refine wp_ofExcept_bind (fun connect _ => ?_) fun _ _ _ returned => by cases returned
  rw [wp_bind]
  refine wp_mono (send_packet_spec (e := set_keep_alive_interval alive e) connect idle) fun r e' sent => ?_
  cases r with
  | error halt => exact fun _ returned => by cases returned
  | ok _ =>
    cases sent with
    | @encoded _ _ events _ _ _ _ encoded transmission =>
      simp only [wp_bind]
      refine wp_mono (receive_packet_unlogged_spec _) fun r e' waited => ?_
      cases r with
      | error halt => exact fun _ returned => by cases returned
      | ok action =>
        obtain ⟨packet, arrived, handled, log⟩ := waited.arrived
        have queue : e'.write_queue = [] := waited.queue
        have before : ∀ event ∈ events, arrives event = false := by
          obtain ⟨more, rfl, hands_over⟩ := transmission.queued
          refine List.forall_mem_cons.mpr ⟨rfl, fun event member => ?_⟩
          have := hands_over event member
          cases event <;> first | rfl | exact this.elim
        cases action with
        | ConnectAck session_present return_code =>
          simp only []
          split
          · rename_i accepted
            simp only [wp_bind, wp_modify, wp_pure, Except.ok.injEq]
            rintro action rfl
            exact ⟨queue, events, packet, _, log, before, arrived, handled, session_present, by rw [accepted]⟩
          · exact fun _ returned => by cases returned
        | _ => exact fun _ returned => by cases returned

/-- A connect that resumes a session and succeeds: after the CONNACK it has sent the
    pending messages again, and nothing else. -/
theorem connect_spec {c : MqttClient H P E} (idle : c.Idle) (kept : c.config.clean_session = false) {packet : P}
    (arrived : c.protocol_engine.world.read 0 = .packet packet) (present : shape (H := H) packet = .connack true 0) :
    wp MqttClient.connect c fun r c' => r = .ok ⟨⟩ → c'.session_state = c.session_state ∧
      ∃ before events packets, c'.protocol_engine.log = c.protocol_engine.log ++ before ++ .received packet :: events ∧
        (∀ event ∈ before, arrives event = false) ∧ Wrote packets events ∧
        ∃ order, packets.map (shape (H := H)) =
          (SessionState.pending_outgoing_publishes order c.session_state).map again := by
  by_cases valid : c.config.validate = .ok ()
  swap
  · obtain ⟨err, ran⟩ := Reconnect.connect_invalid valid
    rw [wp, ran]
    exact fun returned => by cases returned
  have begun : (Reconnect.beginning c).protocol_engine = c.protocol_engine := by simp [Reconnect.beginning, kept]
  have unchanged : (Reconnect.beginning c).session_state = c.session_state := by simp [Reconnect.beginning, kept]
  have shakes := connect_with_will_spec (H := H) c.config.client_id c.config.username c.config.password c.config.keep_alive
    c.config.clean_session (c.config.will_message.map (·.topic)) (c.config.will_message.map (·.payload))
    (c.config.will_message.map (·.qos)) ((c.config.will_message.map (·.retain)).getD false) idle
  refine Reconnect.connect_seq valid (by rw [begun]; exact shakes) (fun _ _ _ returned => by cases returned)
    (fun _ _ _ _ _ returned => by cases returned) (fun _ _ returned => by cases returned) fun e' session_present accepted => ?_
  obtain ⟨queue, before, packet', now, log, quiet, arrived', handled, -⟩ := accepted _ rfl
  cases arrived.symm.trans arrived'
  have said := LawfulHandler.handle c.protocol_engine.handler packet (.ConnectAck true 0) (by rw [present]; rfl)
  cases said.symm.trans handled
  simp only [onlyIf, kept, Bool.not_false, Bool.and_true, if_true]
  rw [MqttClient.resend_pending_messages, wp_bind, wp_get]
  refine wp_mono (resend_spec _ (by exact queue)) fun r c' resent returned => ?_
  obtain ⟨session, packets, events, log', wrote, shapes⟩ := resent returned
  refine ⟨session.trans unchanged, before, .clock now :: events, packets, ?_, quiet, ?_, e'.world.order, ?_⟩
  · rw [log']
    change e'.log ++ events = _
    rw [log]
    simp
  · have clocked : Wrote ([] : List P) [.clock now] := ⟨rfl, rfl⟩
    exact clocked.append wrote
  · rw [← unchanged]
    exact shapes

end

section
variable [Codec V3.Packet MqttProtoError] [Codec V5.Packet ErrorV5] {v : Version}

/-- What resuming a session has to send: every pending message again, and every pending PUBREL. -/
def to_resume (s : InMemorySession) : List Shape :=
  (iter (.same Pid) s.pending_publishes).map again ++ (iter (.same Pid) s.pending_pubrels).map fun entry => .pubrel entry.1

/-- What the connect wrote after the CONNACK is what it had to send, in some order,
    and nothing else, and the session has its messages and PUBRELs still. -/
def Complete (c : Client v) (world : World v.Packet v.Error) : Prop :=
  (∃ packets, Wrote packets (after_arrival (c.events ⟨.connect, world⟩)) ∧
    (packets.map (shape (H := v.Handler))).Perm (to_resume c.session_state)) ∧
  (c.after ⟨.connect, world⟩).session_state.pending_publishes = c.session_state.pending_publishes ∧
  (c.after ⟨.connect, world⟩).session_state.pending_pubrels = c.session_state.pending_pubrels

/-- A session that is resumed is resumed completely exactly if no PUBREL is pending. -/
theorem resume_complete_iff {c : Client v} (reachable : c.Reachable) (kept : c.config.clean_session = false)
    {world : World v.Packet v.Error} {packet : v.Packet} (arrived : world.read 0 = .packet packet)
    (present : shape (H := v.Handler) packet = .connack true 0) (returned : (c.call ⟨.connect, world⟩).1 = .ok .unit) :
    Complete c world ↔ c.session_state.pending_pubrels = ∅ := by
  obtain ⟨_, connected, -⟩ := exec_result_ok (m := MqttClient.connect) (f := fun _ => Reply.unit) returned
  have resumed := connect_spec (c := c.withWorld world) reachable.idle kept arrived present connected
  rw [← Client.after_connect] at resumed
  obtain ⟨session, before, events, packets, log, quiet, wrote, order, shapes⟩ := resumed
  change (c.after ⟨.connect, world⟩).session_state = c.session_state at session
  have later : after_arrival (c.events ⟨.connect, world⟩) = events := by
    rw [Client.events, show (c.after ⟨.connect, world⟩).protocol_engine.log = _ from log]
    change after_arrival (List.drop c.protocol_engine.log.length (c.protocol_engine.log ++ before ++ _)) = _
    rw [List.append_assoc, List.drop_left, after_arrival_split quiet]
  rw [Complete, later, session]
  constructor
  · rintro ⟨⟨packets', wrote', sent⟩, -⟩
    cases wrote.sent.symm.trans wrote'.sent
    rw [shapes] at sent
    -- A PUBREL to send would be among the messages that were sent again.
    refine iter_eq_nil (o := .same Pid) (List.eq_nil_iff_forall_not_mem.mpr fun entry member => ?_)
    have listed : Shape.pubrel entry.1 ∈ to_resume c.session_state :=
      List.mem_append_right _ (List.mem_map.mpr ⟨entry, member, rfl⟩)
    obtain ⟨_, -, same⟩ := List.mem_map.mp (sent.mem_iff.mpr listed)
    cases same
  · intro none
    refine ⟨⟨packets, wrote, ?_⟩, rfl, rfl⟩
    rw [shapes, to_resume, none, show iter (.same Pid) (∅ : HashSet Pid) = [] from rfl, List.map_nil, List.append_nil]
    exact (iter_perm _ _ _).map _

end

/-! ### A released message -/

section
local instance : Codec V3.Packet MqttProtoError := Wire.v3Codec
local instance : Codec V5.Packet ErrorV5 := Wire.v5Codec

/-- A client that published a message, received the packets, and disconnected. -/
def interrupted (qos : QoS) (packets : List V3.Packet) : Client .v3 :=
  Client.run (MqttClient.new (.obliging true []) (Version.handler .v3 ()) { clean_session := false })
    (⟨.connect, .obliging true [.Connack ⟨false, 0⟩]⟩ :: ⟨.publish "a" [1] ⟨qos, false⟩, .obliging true []⟩ ::
      packets.map (fun packet => ⟨.poll, .obliging true [packet]⟩) ++ [⟨.disconnect, .obliging true []⟩])

theorem interrupted_reachable (qos : QoS) (packets : List V3.Packet) : (interrupted qos packets).Reachable :=
  ⟨_, (), _, _, rfl⟩

/-- The broker has the session. -/
def resumed : World V3.Packet MqttProtoError := .obliging true [.Connack ⟨true, 0⟩]

theorem resume_complete_publish : Complete (interrupted .Level1 []) resumed ↔
    (interrupted .Level1 []).session_state.pending_pubrels = ∅ :=
  resume_complete_iff (interrupted_reachable _ _) (by decide +kernel)
    (show resumed.read 0 = .packet (.Connack ⟨true, 0⟩) from rfl) rfl
    (by decide +kernel)

/-- The PUBREL of a released message is not sent again. -/
theorem pubrel_left_out : ¬ ∀ (c : Client .v3) (world : World V3.Packet MqttProtoError) (packet : V3.Packet),
    c.Reachable → c.config.clean_session = false → world.read 0 = .packet packet →
    packet.shape = .connack true 0 → (c.call ⟨.connect, world⟩).1 = .ok .unit → Complete c world := by
  intro complete
  obtain ⟨⟨packets, wrote, sent⟩, -⟩ := complete (interrupted .Level2 [.Pubrec .default]) resumed _
    (interrupted_reachable _ _) (by decide +kernel) rfl rfl (by decide +kernel)
  have written : packets.length = 0 := by
    rw [← wrote.sent]
    decide +kernel
  have due : (to_resume (interrupted .Level2 [.Pubrec .default]).session_state).length = 1 := by decide +kernel
  have count := sent.length_eq
  rw [List.length_map, written, due] at count
  cases count

end

end Masaka.Resume
