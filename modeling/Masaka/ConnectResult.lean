import Masaka.Flags
import Masaka.Resume

/-!
The result of a connect and the state it leaves. The client is connected before the
pending messages are sent again; when that fails, the connect returns the error of a
client that stays connected.
-/
namespace Masaka.ConnectResult
open Effect Tables MqttProtocolHandler MqttProtocolEngine Sending Flags
open MqttClient (engine)

section
variable {H P E : Type}

/-- The bytes and the answers determine what the writes leave. -/
theorem writes_unique {tape rest rest' : Tape} {bytes : Bytes} {events events' : List (Event P)}
    (writes : Writes tape bytes events rest) (writes' : Writes tape bytes events' rest') : rest' = rest := by
  induction writes generalizing events' with
  | done =>
    cases writes' with
    | done => rfl
    | more left _ _ => exact absurd rfl left
  | more left answer _ ih =>
    cases writes' with
    | done => exact absurd rfl left
    | more _ answer' later =>
      cases answer.symm.trans answer'
      exact ih later

/-- The answers of a flush after the next one. -/
def flushed (flush : Nat → Answer Unit) : Nat → Answer Unit := fun n => flush (n + 1)

variable [MqttProtocolHandler H P E]

/-- A packet that is sent has used one flush. -/
theorem send_packet_flush (packet : P) {e : MqttProtocolEngine H P E} (idle : e.write_queue = []) :
    wp (send_packet packet) e fun r e' => r = .ok () → e'.world.flush = flushed e.world.flush :=
  wp_mono (send_packet_stamps packet idle) fun _ _ stamps sent => (stamps.1 sent).1

/-- The packet that sends a stored message again. -/
def again (h : H) (entry : Pid × InflightMessage) : Except E P :=
  create_publish_packet h entry.2.topic entry.2.qos entry.2.retain entry.2.payload (some entry.1) true

/-- The packet cannot be encoded, or the transport refuses a part of it or fails to flush it. -/
def Undeliverable (h : H) (tape : Tape) (flush : Nat → Answer Unit) (packet : P) : Prop :=
  match encode_packet h packet with
  | .error _ => True
  | .ok bytes => Refuses tape bytes.length ∨ Takes tape bytes.length ∧ ∃ err, flush 0 = some (.error err)

/-- One of the messages cannot be sent again, after those before it were. -/
inductive ResendFails (h : H) : Tape → (Nat → Answer Unit) → List (Pid × InflightMessage) → Prop where
  | unmade {tape : Tape} {flush : Nat → Answer Unit} {entry : Pid × InflightMessage} {rest : List (Pid × InflightMessage)}
      {err : E} : again h entry = .error err → ResendFails h tape flush (entry :: rest)
  | unsent {tape : Tape} {flush : Nat → Answer Unit} {entry : Pid × InflightMessage} {rest : List (Pid × InflightMessage)}
      {packet : P} : again h entry = .ok packet → Undeliverable h tape flush packet → ResendFails h tape flush (entry :: rest)
  | later {tape tape' : Tape} {flush : Nat → Answer Unit} {entry : Pid × InflightMessage}
      {rest : List (Pid × InflightMessage)} {packet : P} {bytes : VarBytes} {events : List (Event P)} :
      again h entry = .ok packet → encode_packet h packet = .ok bytes → Writes tape bytes events tape' →
      flush 0 = some (.ok ()) → ResendFails h tape' (flushed flush) rest → ResendFails h tape flush (entry :: rest)

/-- A packet that can be sent is not undeliverable. -/
theorem writes_deliverable {h : H} {tape rest : Tape} {flush : Nat → Answer Unit} {packet : P} {bytes : VarBytes}
    {events : List (Event P)} (encodes : encode_packet h packet = .ok bytes) (writes : Writes tape bytes events rest)
    (answer : flush 0 = some (.ok ())) : ¬ Undeliverable h tape flush packet := by
  simp only [Undeliverable, encodes]
  rintro (refuses | ⟨-, err, failed⟩)
  · exact writes.takes.not_refuses refuses
  · cases answer.symm.trans failed

/-- The loop over the pending messages fails exactly then. -/
theorem resend_fails_iff (entries : List (Pid × InflightMessage)) {c : MqttClient H P E} (idle : c.Idle) :
    wp (entries.forM MqttClient.resend) c fun r _ => (∃ err, r = .error (.err err)) ↔
      ResendFails c.protocol_engine.handler c.protocol_engine.world.write c.protocol_engine.world.flush entries := by
  induction entries generalizing c with
  | nil =>
    constructor
    · rintro ⟨err, failed⟩
      cases failed
    · intro fails
      cases fails
  | cons entry rest ih =>
    change wp (MqttClient.resend entry >>= fun _ => rest.forM MqttClient.resend) c _
    rw [wp_bind, MqttClient.resend, wp_bind, wp_get]
    simp only [wp_bind, wp_ofExcept]
    cases created : create_publish_packet c.protocol_engine.handler entry.2.topic entry.2.qos entry.2.retain
      entry.2.payload (some entry.1) true with
    | error err => exact ⟨fun _ => .unmade created, fun _ => ⟨_, rfl⟩⟩
    | ok packet =>
      simp only [wp_zoom]
      refine wp_mono (wp_and (send_packet_spec packet idle) (send_packet_flush packet idle)) fun r e outcome => ?_
      obtain ⟨sent, flush⟩ := outcome
      have undeliverable := sent.fails_iff
      cases r with
      | error halt =>
        constructor
        · rintro ⟨err, failed⟩
          cases failed
          exact .unsent created (undeliverable.mp ⟨err, rfl⟩)
        · intro fails
          cases fails with
          | unmade unmade => cases created.symm.trans unmade
          | unsent made unsent =>
            cases created.symm.trans made
            obtain ⟨err, failed⟩ := undeliverable.mpr unsent
            exact ⟨err, congrArg Except.error (Except.error.inj failed)⟩
          | later made encodes writes answer _ =>
            cases created.symm.trans made
            cases sent.succeeds_iff.mpr ⟨_, encodes, writes.takes, answer⟩
      | ok _ =>
        cases sent with
        | @encoded _ _ _ _ _ left _ encodes transmission _ =>
          obtain rfl : left = flushed c.protocol_engine.world.flush := flush rfl
          cases transmission with
          | complete writes answer =>
            refine wp_mono (ih (by exact rfl)) fun r c' fails => fails.trans ?_
            constructor
            · exact fun later => .later created encodes writes answer later
            · intro fails
              cases fails with
              | unmade unmade => cases created.symm.trans unmade
              | unsent made unsent =>
                cases created.symm.trans made
                exact absurd unsent (writes_deliverable encodes writes answer)
              | later made encodes' writes' _ later =>
                cases created.symm.trans made
                cases encodes.symm.trans encodes'
                rw [writes_unique writes writes'] at later
                exact later

/-- Sending the pending messages again fails exactly if one of them cannot be sent, and
    leaves the connection as it is. -/
theorem resend_pending_spec {c : MqttClient H P E} (idle : c.Idle) :
    wp MqttClient.resend_pending_messages c fun r c' => ((∃ err, r = .error (.err err)) ↔
      ResendFails c.protocol_engine.handler c.protocol_engine.world.write c.protocol_engine.world.flush
        (SessionState.pending_outgoing_publishes c.protocol_engine.world.order c.session_state)) ∧
      c'.state.connection_state = c.state.connection_state := by
  have steady := steady_sweep.resend_pending_messages (H := H) (P := P) (E := E)
  refine ⟨?_, (steady c).state⟩
  have fails := resend_fails_iff (SessionState.pending_outgoing_publishes c.protocol_engine.world.order c.session_state) idle
  rw [MqttClient.resend_pending_messages, exec_bind, exec_get]
  exact fails

/-! ### The handshake -/

/-- The CONNECT that a handshake sends. -/
def connect_packet (h : H) (id : String) (user : Option String) (pass : Option Bytes) (alive : UInt16) (clean : Bool)
    (topic : Option TopicName) (message : Option Bytes) (qos : Option QoS) (retain : Bool) : Except E P :=
  match topic, message, qos with
  | some topic, some message, some qos =>
    create_connect_with_will_packet h id user pass alive clean topic message qos retain
  | _, _, _ => create_connect_packet h id user pass alive clean

/-- The CONNECT goes out, and the broker accepts it and says whether it has the session. -/
structure Exchanges (e : MqttProtocolEngine H P E) (connect : Except E P) (session_present : Bool) (tape : Tape) : Prop where
  sent : ∃ packet bytes events, connect = .ok packet ∧ encode_packet e.handler packet = .ok bytes ∧
    Writes (P := P) e.world.write bytes events tape
  flushed : e.world.flush 0 = some (.ok ())
  accepted : ∃ packet, e.world.read 0 = .packet packet ∧
    handle_packet e.handler packet = .ok (.ConnectAck session_present 0)

/-- The broker says one thing only, and the writes leave one tape. -/
theorem Exchanges.unique {e : MqttProtocolEngine H P E} {connect : Except E P} {session_present present : Bool}
    {tape rest : Tape} (exchange : Exchanges e connect session_present tape) (other : Exchanges e connect present rest) :
    present = session_present ∧ rest = tape := by
  obtain ⟨packet, bytes, events, created, encodes, writes⟩ := exchange.sent
  obtain ⟨packet', bytes', events', created', encodes', writes'⟩ := other.sent
  cases created.symm.trans created'
  cases encodes.symm.trans encodes'
  obtain ⟨connack, arrived, handled⟩ := exchange.accepted
  obtain ⟨connack', arrived', handled'⟩ := other.accepted
  cases arrived.symm.trans arrived'
  cases handled.symm.trans handled'
  exact ⟨rfl, writes_unique writes writes'⟩

/-- What the handshake leaves when the CONNECT is accepted. -/
structure Accepted (e : MqttProtocolEngine H P E) (connect : Except E P) (session_present : Bool)
    (e' : MqttProtocolEngine H P E) : Prop where
  exchange : Exchanges e connect session_present e'.world.write
  queue : e'.write_queue = []
  handler : e'.handler = e.handler
  flush : e'.world.flush = ConnectResult.flushed e.world.flush
  order : e'.world.order = e.world.order

/-- A handshake returns the CONNACK if the CONNECT is accepted, and fails otherwise. -/
theorem handshake_spec (id : String) (user : Option String) (pass : Option Bytes) (alive : UInt16) (clean : Bool)
    (topic : Option TopicName) (message : Option Bytes) (qos : Option QoS) (retain : Bool) {e : MqttProtocolEngine H P E}
    (idle : e.write_queue = []) (free : e.connected = false) :
    let connect : Except E P := connect_packet e.handler id user pass alive clean topic message qos retain
    wp (connect_with_will id user pass alive clean topic message qos retain) e fun r e' =>
      (∀ action, r = .ok action → ∃ session_present, action = .ConnectAck session_present 0 ∧
        Accepted e connect session_present e') ∧
      ∀ halt, r = .error halt → ∀ session_present tape, ¬ Exchanges e connect session_present tape := by
  intro connect
  rw [connect_with_will, wp_bind, wp_get]
  simp only [free, Bool.false_eq_true, if_false]
  rw [wp_bind, wp_modify]
  change wp (Effect.ofExcept (into H) connect >>= _) _ _
  refine wp_ofExcept_bind (fun packet created => ?_) fun err failed => ?_
  rotate_left
  · refine ⟨fun action returned => (by cases returned), fun halt _ session_present tape exchange => ?_⟩
    obtain ⟨packet, _, _, created, -⟩ := exchange.sent
    cases failed.symm.trans created
  rw [wp_bind]
  refine wp_mono (wp_and (send_packet_spec (e := set_keep_alive_interval alive e) packet idle)
    (send_packet_flush (e := set_keep_alive_interval alive e) packet idle)) fun r e₁ outcome => ?_
  obtain ⟨sent, flush⟩ := outcome
  have sends := sent.succeeds_iff
  obtain ⟨-, handler, -, order, read⟩ := sent.frame
  cases r with
  | error halt =>
    refine ⟨fun action returned => (by cases returned), fun halt _ session_present tape exchange => ?_⟩
    obtain ⟨packet', bytes, events, created', encodes, writes⟩ := exchange.sent
    cases created.symm.trans created'
    cases sends.mpr ⟨bytes, encodes, writes.takes, exchange.flushed⟩
  | ok _ =>
    obtain ⟨bytes, encodes, -, answer⟩ := sends.mp rfl
    have writes : ∃ events, Writes (P := P) e.world.write bytes events e₁.world.write := by
      cases sent with
      | encoded encodes' transmission _ =>
        cases encodes.symm.trans encodes'
        cases transmission with
        | complete writes _ => exact ⟨_, writes⟩
    obtain ⟨events, writes⟩ := writes
    dsimp only
    rw [wp_bind]
    refine wp_mono (receive_packet_unlogged_spec e₁) fun r e₂ waited => ?_
    have outcome : r = received e := by
      rw [waited.outcome, received, received, read, handler]
      rfl
    have unaccepted : (∀ session_present, r ≠ .ok (.ConnectAck session_present 0)) →
        ∀ session_present tape, ¬ Exchanges e connect session_present tape := by
      intro other session_present tape exchange
      obtain ⟨connack, arrived, handled⟩ := exchange.accepted
      refine other session_present ?_
      rw [outcome, received, arrived]
      simp only [handled]
      rfl
    cases r with
    | error halt =>
      exact ⟨fun action returned => (by cases returned), fun _ _ => unaccepted fun _ same => by cases same⟩
    | ok action =>
      cases action with
      | ConnectAck session_present return_code =>
        by_cases zero : return_code = 0
        · subst zero
          simp only [if_true]
          refine ⟨fun action returned => ⟨session_present, (Except.ok.inj returned).symm, ?_⟩, fun halt failed => ?_⟩
          · obtain ⟨connack, arrived, handled, -⟩ := waited.arrived
            rw [read] at arrived
            rw [handler] at handled
            refine ⟨⟨⟨packet, bytes, events, created, encodes, ?_⟩, answer, connack, arrived, handled⟩,
              waited.queue.trans (sent.idle idle), waited.handler.trans handler, waited.flush.trans (flush rfl),
              waited.order.trans order⟩
            change Writes e.world.write bytes events e₂.world.write
            rw [waited.write]
            exact writes
          · cases failed
        · simp only [zero, if_false]
          refine ⟨fun action returned => (by cases returned), fun _ _ => unaccepted fun session_present same => ?_⟩
          cases same
          exact zero rfl
      | _ => exact ⟨fun action returned => (by cases returned), fun _ _ => unaccepted fun _ same => (by cases same)⟩

/-! ### Connecting -/

/-- The CONNECT of a client. -/
def connect_of (c : MqttClient H P E) : Except E P :=
  connect_packet c.protocol_engine.handler c.config.client_id c.config.username c.config.password c.config.keep_alive
    c.config.clean_session (c.config.will_message.map (·.topic)) (c.config.will_message.map (·.payload))
    (c.config.will_message.map (·.qos)) ((c.config.will_message.map (·.retain)).getD false)

/-- The client's CONNECT is accepted by a broker that has its session, and one of the
    pending messages cannot be sent again. -/
structure ResumeFails (c : MqttClient H P E) : Prop where
  valid : c.config.validate = .ok ()
  free : c.protocol_engine.connected = false
  kept : c.config.clean_session = false
  resend : ∃ tape, Exchanges c.protocol_engine (connect_of c) true tape ∧
    ResendFails c.protocol_engine.handler tape (flushed c.protocol_engine.world.flush)
      (SessionState.pending_outgoing_publishes c.protocol_engine.world.order c.session_state)

/-- A connect that fails leaves the client connected exactly then. -/
theorem connect_result {c : MqttClient H P E} (idle : c.Idle) (other : c.state.connection_state ≠ .Connected) :
    wp MqttClient.connect c fun r c' =>
      (∃ err, r = .error (.err err)) ∧ c'.state.connection_state = .Connected ↔ ResumeFails c := by
  refine Reconnect.connect_cases (fun invalid err => ?_) (fun _ flag => ?_) fun valid free => ?_
  · exact ⟨fun failed => absurd failed.2 other, fun fails => absurd fails.valid invalid⟩
  · exact ⟨fun failed => (by cases failed.2), fun fails => (by cases flag.symm.trans fails.free)⟩
  have begun := Reconnect.beginning_engine c
  have idle' : (Reconnect.beginning c).protocol_engine.write_queue = [] := (Reconnect.beginning_queue c).trans idle
  have unexchanged : (∀ tape, ¬ Exchanges c.protocol_engine (connect_of c) true tape) → ¬ ResumeFails c := by
    intro none fails
    obtain ⟨tape, exchange, -⟩ := fails.resend
    exact none tape exchange
  refine Reconnect.connect_seq valid
    (handshake_spec _ _ _ _ _ _ _ _ _ idle' ((Reconnect.beginning_connected c).trans free)) (fun e err shook => ?_)
    (fun e action err shook unaccepted => ?_) (fun e shook => ?_) fun e session_present shook => ?_
  · rw [begun] at shook
    refine ⟨fun failed => (by cases failed.2), fun fails => absurd fails (unexchanged fun tape exchange => ?_)⟩
    exact shook.2 _ rfl true tape ⟨exchange.sent, exchange.flushed, exchange.accepted⟩
  · obtain ⟨session_present, same, -⟩ := shook.1 action rfl
    exact absurd same (unaccepted session_present)
  · rw [begun] at shook
    refine ⟨fun failed => (by cases failed.1.choose_spec), fun fails => absurd fails (unexchanged fun tape exchange => ?_)⟩
    exact shook.2 _ rfl true tape ⟨exchange.sent, exchange.flushed, exchange.accepted⟩
  rw [begun] at shook
  obtain ⟨present, same, exchanged⟩ := shook.1 _ rfl
  cases same
  have exchange : Exchanges c.protocol_engine (connect_of c) session_present e.world.write :=
    ⟨exchanged.exchange.sent, exchanged.exchange.flushed, exchanged.exchange.accepted⟩
  by_cases resumes : session_present = true ∧ c.config.clean_session = false
  · obtain ⟨rfl, kept⟩ := resumes
    have session : (Reconnect.beginning c).session_state = c.session_state := by simp [Reconnect.beginning, kept]
    simp only [onlyIf, kept, Bool.not_false, Bool.and_self, if_true]
    refine wp_mono (resend_pending_spec (by exact exchanged.queue)) fun r c' outcome => ?_
    obtain ⟨fails, connected⟩ := outcome
    change (_ ↔ ResendFails e.handler e.world.write e.world.flush
      (SessionState.pending_outgoing_publishes e.world.order (Reconnect.beginning c).session_state)) at fails
    rw [exchanged.handler, exchanged.flush, exchanged.order, session] at fails
    have state : c'.state.connection_state = .Connected := connected.trans rfl
    constructor
    · rintro ⟨failed, -⟩
      exact ⟨valid, free, kept, _, exchange, fails.mp failed⟩
    · intro resume
      obtain ⟨tape, other, resend⟩ := resume.resend
      rw [(exchange.unique other).2] at resend
      exact ⟨fails.mpr resend, state⟩
  · have skipped : ¬ ((session_present && !c.config.clean_session) = true) := by
      simpa using resumes
    simp only [onlyIf, skipped]
    constructor
    · rintro ⟨⟨err, failed⟩, -⟩
      cases failed
    · intro fails
      obtain ⟨tape, other, -⟩ := fails.resend
      exact absurd ⟨(exchange.unique other).1.symm, fails.kept⟩ resumes

end

section
variable [Codec V3.Packet MqttProtoError] [Codec V5.Packet ErrorV5] {v : Version}

/-- A connect that returns has succeeded exactly if the client is connected then. -/
def ResultAgrees (c : Client v) (world : World v.Packet v.Error) : Prop :=
  (c.call ⟨.connect, world⟩).1 ≠ .error .cut →
    ((c.call ⟨.connect, world⟩).1 = .ok .unit ↔ (c.after ⟨.connect, world⟩).state.connection_state = .Connected)

/-- The result agrees with the state unless the pending messages cannot all be sent again. -/
theorem result_agrees_iff {c : Client v} (reachable : c.Reachable) (other : c.state.connection_state ≠ .Connected)
    (world : World v.Packet v.Error) : ResultAgrees c world ↔ ¬ ResumeFails (c.withWorld world) := by
  have result := connect_result (c := c.withWorld world) reachable.idle other
  have connects := connect_flags (c.withWorld world)
  rw [wp] at result connects
  rw [ResultAgrees, c.after_connect, c.connect_returns]
  generalize exec MqttClient.connect (c.withWorld world) = ran at result connects
  obtain ⟨(err | _) | _, c'⟩ := ran
  · constructor
    · intro agrees fails
      cases (agrees fun same => by cases same).mpr (result.mpr fails).2
    · intro resumes _
      constructor
      · intro returned
        cases returned
      · intro connected
        exact absurd (result.mp ⟨⟨err, rfl⟩, connected⟩) resumes
  · constructor
    · intro _ fails
      obtain ⟨⟨err, failed⟩, -⟩ := result.mpr fails
      cases failed
    · intro _ returned
      exact absurd rfl returned
  · constructor
    · intro _ fails
      obtain ⟨⟨err, failed⟩, -⟩ := result.mpr fails
      cases failed
    · intro _ _
      have connected : c'.state.connection_state = .Connected := by
        generalize after : flags c' = state at connects
        cases connects with
        | accepted _ _ => exact congrArg Prod.fst after
      exact ⟨fun _ => connected, fun _ => rfl⟩

end

/-! ### A link that fails during the resend -/

section
local instance : Codec V3.Packet MqttProtoError := Wire.v3Codec
local instance : Codec V5.Packet ErrorV5 := Wire.v5Codec

/-- The transport takes the CONNECT and nothing after it. -/
def dwindling : World V3.Packet MqttProtoError := { Resume.resumed with
  write := fun n => if n = 0 then some (.ok 65536) else some (.error (.Io "broken pipe")) }

theorem result_agrees_resumed : (Resume.interrupted .Level1 []).state.connection_state ≠ .Connected ∧
    (ResultAgrees (Resume.interrupted .Level1 []) Resume.resumed ↔
      ¬ ResumeFails ((Resume.interrupted .Level1 []).withWorld Resume.resumed)) :=
  ⟨by decide +kernel, result_agrees_iff (Resume.interrupted_reachable _ _) (by decide +kernel) _⟩

/-- A connect fails and leaves the client connected. -/
theorem fails_connected : ¬ ∀ (c : Client .v3) (world : World V3.Packet MqttProtoError), c.Reachable →
    c.state.connection_state ≠ .Connected → ResultAgrees c world := by
  intro agrees
  have result := agrees (Resume.interrupted .Level1 []) dwindling (Resume.interrupted_reachable _ _) (by decide +kernel)
  have failed : ((Resume.interrupted .Level1 []).call ⟨.connect, dwindling⟩).1 =
      .error (.err (.Transport (.Io "broken pipe"))) := by decide +kernel
  have connected : ((Resume.interrupted .Level1 []).after ⟨.connect, dwindling⟩).state.connection_state = .Connected := by
    decide +kernel
  rw [ResultAgrees, failed] at result
  cases (result fun same => by cases same).mpr connected

end

end Masaka.ConnectResult
