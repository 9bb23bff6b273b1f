import Masaka.Reconnect
import Masaka.Resume
import Masaka.Versions

/-!
The calls of version 5.0 that take properties. They bypass the engine's own requests and
do their work themselves; with the default properties they do just what the general calls
do (`extended_calls_agree`), except that a PUBLISH gets a topic alias.
-/
namespace Masaka.Extended
open Effect Tables MqttProtocolHandler MqttProtocolEngine Sending Versions Operations
open MqttClient (engine engineSession)

/-! ### The checks of the calls -/

section
variable {c : Client .v5} {world world' : World V5.Packet ErrorV5}

theorem exec_whenConnected (connected : c.state.connection_state = .Connected)
    (request : ClientM V5Handler V5.Packet ErrorV5 Unit) : exec (MqttClient.whenConnected request) c = exec request c := by
  rw [MqttClient.whenConnected, exec_bind, exec_get]
  simp only [connected, ne_eq, not_true_eq_false, if_false]
theorem exec_unconnected (unconnected : c.state.connection_state ≠ .Connected)
    (request : ClientM V5Handler V5.Packet ErrorV5 Unit) :
    exec (MqttClient.whenConnected request) c = (.error (.err .InvalidState), c) := by
  rw [MqttClient.whenConnected, exec_bind, exec_get]
  simp only [unconnected, ne_eq, not_false_eq_true, if_true]
  rfl

/-- The client may publish a message. -/
def Admitted (c : Client .v5) : Prop := c.state.connection_state = .Connected ∧ c.inflight_limit_reached = false

/-- The checks of both publish operations. -/
theorem exec_checks (admitted : Admitted c) (request : Client .v5 → ClientM V5Handler V5.Packet ErrorV5 Unit) :
    exec (MqttClient.whenConnected (get >>= fun c => if c.inflight_limit_reached then fail .PublishFailed else request c)) c =
      exec (request c) c := by
  rw [exec_whenConnected admitted.1, exec_bind, exec_get]
  simp only [admitted.2, Bool.false_eq_true, if_false]
/-- A client that may not publish is told why, and nothing else happens. -/
theorem exec_checks_refused (refused : ¬ Admitted c) (request : Client .v5 → ClientM V5Handler V5.Packet ErrorV5 Unit) :
    exec (MqttClient.whenConnected (get >>= fun c => if c.inflight_limit_reached then fail .PublishFailed else request c)) c =
      (.error (.err (if c.state.connection_state = .Connected then .PublishFailed else .InvalidState)), c) := by
  by_cases connected : c.state.connection_state = .Connected
  · have full : c.inflight_limit_reached = true := (Bool.not_eq_false _).mp fun free => refused ⟨connected, free⟩
    rw [exec_whenConnected connected, exec_bind, exec_get]
    simp only [full, connected, if_true]
    rfl
  · rw [exec_unconnected connected, if_neg connected]

/-- The limit does not depend on the order in which the table is read. -/
theorem admitted_withWorld : Admitted (c.withWorld world) ↔ Admitted c := by
  have count : (c.withWorld world).inflight_limit_reached = c.inflight_limit_reached := by
    rw [MqttClient.inflight_limit_reached, MqttClient.inflight_limit_reached]
    exact congrArg (fun n => decide (n ≥ c.config.max_inflight_messages)) (iter_perm _ _ _).length_eq
  rw [Admitted, Admitted, count]
  rfl

/-- The PUBLISH that the default properties make, and the handler that it leaves. -/
theorem create_publish_default (topic : TopicName) {qos : QoS} (retain : Bool) (payload : Bytes) {pid : Option Pid}
    {qp : QosPid} (carried : qos_pid qos pid = .ok qp) (h : V5Handler) : ∃ handler,
      V5Handler.create_publish_with_config topic qos retain payload pid false {} h = (.ok (.Publish {
        dup := false, qos_pid := qp, retain := retain, topic_name := topic, payload := payload
        properties := { topic_alias := some ((h.topic_aliases.lookup topic).getD h.next_topic_alias) } }), handler) := by
  rw [V5Handler.create_publish_with_config, carried]
  cases h.topic_aliases.lookup topic with
  | none => exact ⟨_, rfl⟩
  | some known => exact ⟨_, rfl⟩

end

/-! ### Sending alike packets -/

section
variable {α : Type} {c : Client .v5} {world world' : World V5.Packet ErrorV5}

/-- The events after those of the log. -/
def since (log : List (Event V5.Packet)) (c : Client .v5) : List (Event V5.Packet) :=
  c.protocol_engine.log.drop log.length

/-- The same result, session and state. The packets that were sent after those of the log are
    alike, one by one. -/
structure SameOutcome (alike : V5.Packet → V5.Packet → Prop) (log : List (Event V5.Packet))
    (o o' : Except (Halt MqttError) α × Client .v5) : Prop where
  result : o.1 = o'.1
  session : o.2.session_state = o'.2.session_state
  state : o.2.state = o'.2.state
  queued : List.Forall₂ alike (packets_queued (since log o.2)) (packets_queued (since log o'.2))
  sent : ∀ a, o.1 = .ok a → List.Forall₂ alike (packets_sent (since log o.2)) (packets_sent (since log o'.2))

/-- The client with another engine. -/
def withEngine (e : MqttProtocolEngine V5Handler V5.Packet ErrorV5) (c : Client .v5) : Client .v5 :=
  { c with protocol_engine := e }

/-- The client has sent nothing since the log. -/
structure Still (log : List (Event V5.Packet)) (c : Client .v5) : Prop where
  idle : c.Idle
  noted : ∃ aside, Wrote [] aside ∧ outcomes aside = [] ∧ c.protocol_engine.log = log ++ aside

/-- Clients that differ in their engines only, and have sent nothing since the log. -/
structure Twins (log : List (Event V5.Packet)) (c c' : Client .v5) : Prop where
  rest : c' = withEngine c'.protocol_engine c
  still : Still log c
  still' : Still log c'

theorem Twins.handler {log : List (Event V5.Packet)} {c c' : Client .v5} (twins : Twins log c c') (h : V5Handler) :
    Twins log (withEngine { c.protocol_engine with handler := h } c) c' :=
  ⟨twins.rest, ⟨twins.still.idle, twins.still.noted⟩, twins.still'⟩

theorem Still.wrote {log : List (Event V5.Packet)} {c : Client .v5} (still : Still log c) : Wrote [] (since log c) := by
  obtain ⟨aside, quiet, -, grown⟩ := still.noted
  rw [since, grown, List.drop_left]
  exact quiet

/-- The same outcome of twins. -/
theorem Twins.unsent {log : List (Event V5.Packet)} {c c' : Client .v5} (twins : Twins log c c')
    (alike : V5.Packet → V5.Packet → Prop) (r : Except (Halt MqttError) α) : SameOutcome alike log (r, c) (r, c') := by
  refine ⟨rfl, ?_, ?_, ?_, fun _ _ => ?_⟩
  · exact (congrArg (·.session_state) twins.rest).symm
  · exact (congrArg (·.state) twins.rest).symm
  · rw [twins.still.wrote.queued, twins.still'.wrote.queued]
    exact .nil
  · rw [twins.still.wrote.sent, twins.still'.wrote.sent]
    exact .nil

/-- What holds of two computations holds of the calls that perform them. -/
theorem SameOutcome.reply {alike : V5.Packet → V5.Packet → Prop} {log : List (Event V5.Packet)}
    {m m' : ClientM V5Handler V5.Packet ErrorV5 Unit} {c c' : Client .v5} (same : SameOutcome alike log (exec m c) (exec m' c')) :
    SameOutcome alike log (exec (m >>= fun _ => pure Reply.unit) c) (exec (m' >>= fun _ => pure Reply.unit) c') := by
  have state := exec_result_state m (fun _ => Reply.unit) c
  have state' := exec_result_state m' (fun _ => Reply.unit) c'
  refine ⟨?_, ?_, ?_, ?_, fun reply returned => ?_⟩
  · rw [exec_result_value m fun _ => Reply.unit, exec_result_value m' fun _ => Reply.unit, same.result]
  · rw [state, state']
    exact same.session
  · rw [state, state']
    exact same.state
  · rw [state, state']
    exact same.queued
  · obtain ⟨_, returned, -⟩ := exec_result_ok (f := fun _ => Reply.unit) returned
    rw [state, state']
    exact same.sent _ returned

theorem start_twins (idle : c.Idle) : Twins c.protocol_engine.log (c.withWorld world) (c.withWorld world') := by
  have still : ∀ world, Still c.protocol_engine.log (c.withWorld world) := fun world =>
    ⟨idle, [], .nil, rfl, (List.append_nil _).symm⟩
  exact ⟨rfl, still world, still world'⟩

theorem handed_out_twins (idle : c.Idle) :
    Twins c.protocol_engine.log (handed_out (c.withWorld world)) (handed_out (c.withWorld world')) := by
  have still : ∀ world, Still c.protocol_engine.log (handed_out (c.withWorld world)) := fun world =>
    ⟨idle, [.handed_out c.session_state.next_pid], ⟨rfl, rfl⟩, rfl, rfl⟩
  exact ⟨rfl, still world, still world'⟩

/-- The client that the PUBLISH is sent from: its message is stored, if it has an identifier. -/
def ready (c : Client .v5) (topic : TopicName) (payload : Bytes) (config : PublishConfig) : Client .v5 :=
  if config.qos = .Level0 then c else accepted c topic config.qos config.retain payload

/-- At the same time, the messages are stored alike. -/
theorem ready_twins (clock : world.now = world'.now) (idle : c.Idle) (topic : TopicName) (payload : Bytes)
    (config : PublishConfig) : Twins c.protocol_engine.log (ready (c.withWorld world) topic payload config)
      (ready (c.withWorld world') topic payload config) := by
  by_cases level : config.qos = .Level0
  · rw [ready, ready, if_pos level, if_pos level]
    exact start_twins idle
  · rw [ready, ready, if_neg level, if_neg level]
    have still : ∀ world, Still c.protocol_engine.log (accepted (c.withWorld world) topic config.qos config.retain payload) :=
      fun world => by
        refine ⟨idle, [.handed_out c.session_state.next_pid, .clock (world.now 0), .accepted c.session_state.next_pid],
          ⟨rfl, rfl⟩, rfl, ?_⟩
        simp [accepted, MqttClient.withWorld]
    refine ⟨?_, still world, still world'⟩
    simp only [accepted, stored, withEngine, MqttClient.withWorld, clock]

/-- The computation leaves the engine alone, and does not look at it. -/
def BesideEngine (m : ClientM V5Handler V5.Packet ErrorV5 α) : Prop := ∀ e, Commutes (withEngine e) m

theorem counting : BesideEngine (modify fun c => { c with state := c.state.record_message_sent }) :=
  fun _ => Commutes.modify fun _ => rfl

theorem adding (pid : Pid) (subscriptions : List (TopicFilter × QoS)) :
    BesideEngine (MqttClient.add_subscriptions pid subscriptions) := by
  intro e
  refine (Commutes.compositional (withEngine e)).forM (fun entry => ?_) subscriptions
  intro c
  rw [exec_trySession, exec_trySession]
  rfl

/-- What sending a packet leaves behind. -/
structure Leaves (packet : V5.Packet) (r : Except (Halt MqttError) Unit) (events : List (Event V5.Packet)) : Prop where
  outcome : outcomes events = [r]
  queued : packets_queued events = [packet]
  sent : r = .ok () → packets_sent events = [packet]

theorem Leaves.after {packet : V5.Packet} {r : Except (Halt MqttError) Unit} {aside events : List (Event V5.Packet)}
    (leaves : Leaves packet r events) (quiet : Wrote [] aside) (unheard : outcomes aside = []) :
    Leaves packet r (aside ++ events) := by
  refine ⟨?_, ?_, fun returned => ?_⟩
  · rw [outcomes_append, unheard, leaves.outcome]
    rfl
  · rw [packets_queued, List.filterMap_append]
    exact congrArg₂ (· ++ ·) quiet.queued leaves.queued
  · rw [packets_sent, List.filterMap_append]
    exact congrArg₂ (· ++ ·) quiet.sent (leaves.sent returned)

variable [Codec V5.Packet ErrorV5]

/-- The packet can be encoded. -/
def Encodes (packet : V5.Packet) : Prop := ∃ bytes : VarBytes, Codec.encode (E := ErrorV5) packet = .ok bytes

theorem send_leaves {packet : V5.Packet} (encodes : Encodes packet) {e : MqttProtocolEngine V5Handler V5.Packet ErrorV5}
    (idle : e.write_queue = []) :
    wp (send_packet packet) e fun r t => ∃ events, t.log = e.log ++ events ∧ Leaves packet r events := by
  refine wp_mono (send_packet_spec packet idle) fun r t sent => ?_
  cases sent with
  | unencoded refused =>
    obtain ⟨bytes, encoded⟩ := encodes
    cases encoded.symm.trans refused
  | @encoded bytes _ events _ _ _ _ encoded transmission =>
    refine ⟨events, rfl, transmission_outcome transmission, ?_, ?_⟩
    · exact transmission.packets
    · rintro rfl
      exact (transmission_wrote transmission).sent

/-- How a computation goes on after a packet was sent, which left the engine. -/
def goes_on (next : ClientM V5Handler V5.Packet ErrorV5 α) (c : Client .v5)
    (e : MqttProtocolEngine V5Handler V5.Packet ErrorV5) : Except (Halt MqttError) Unit → Except (Halt MqttError) α × Client .v5
  | .ok _ => ((exec next c).1, withEngine e (exec next c).2)
  | .error halt => (.error halt, withEngine e c)

/-- A client that has sent nothing yet sends a packet and goes on. -/
theorem sending_goes_on {packet : V5.Packet} (encodes : Encodes packet) {next : ClientM V5Handler V5.Packet ErrorV5 α}
    (beside : BesideEngine next) {log : List (Event V5.Packet)} {c : Client .v5} (still : Still log c) : ∃ r e,
      exec (zoom engine (send_packet packet) >>= fun _ => next) c = goes_on next c e r ∧
        Leaves packet r (since log (goes_on next c e r).2) := by
  obtain ⟨events, grown, leaves⟩ := send_leaves encodes (e := c.protocol_engine) still.idle
  obtain ⟨aside, quiet, unheard, start⟩ := still.noted
  refine ⟨(exec (send_packet packet) c.protocol_engine).1, (exec (send_packet packet) c.protocol_engine).2, ?_, ?_⟩
  · have ran : exec (zoom engine (send_packet packet)) c =
      ((exec (send_packet packet) c.protocol_engine).1, withEngine (exec (send_packet packet) c.protocol_engine).2 c) := rfl
    rw [exec_bind, ran]
    rcases exec (send_packet packet) c.protocol_engine with ⟨halt | _, e⟩
    · rfl
    · exact beside e c
  · generalize (exec (send_packet packet) c.protocol_engine).1 = r at leaves ⊢
    generalize (exec (send_packet packet) c.protocol_engine).2 = e at grown ⊢
    have after : since log (goes_on next c e r).2 = aside ++ events := by
      have engine : (goes_on next c e r).2.protocol_engine = e := by cases r <;> rfl
      rw [since, engine, grown, start, List.append_assoc, List.drop_left]
    rw [after]
    exact leaves.after quiet unheard

/-- Twins that send alike packets with the same outcome go on in the same way. -/
theorem sending_agrees {alike : V5.Packet → V5.Packet → Prop} {packet packet' : V5.Packet} (similar : alike packet packet')
    (encodes : Encodes packet) (encodes' : Encodes packet') {next : ClientM V5Handler V5.Packet ErrorV5 α}
    (beside : BesideEngine next) {log : List (Event V5.Packet)} {c c' : Client .v5} (twins : Twins log c c')
    (same : outcomes (since log (exec (zoom engine (send_packet packet) >>= fun _ => next) c).2) =
      outcomes (since log (exec (zoom engine (send_packet packet') >>= fun _ => next) c').2)) :
    SameOutcome alike log (exec (zoom engine (send_packet packet) >>= fun _ => next) c)
      (exec (zoom engine (send_packet packet') >>= fun _ => next) c') := by
  obtain ⟨r, e, run, leaves⟩ := sending_goes_on encodes beside twins.still
  obtain ⟨r', e', run', leaves'⟩ := sending_goes_on encodes' beside twins.still'
  rw [run, run'] at same ⊢
  have fate : r = r' := by
    rw [leaves.outcome, leaves'.outcome] at same
    exact List.singleton_inj.mp same
  subst fate
  have went : goes_on next c' e' r = ((goes_on next c e r).1, withEngine e' (goes_on next c e r).2) := by
    rw [twins.rest]
    cases r with
    | error halt => rfl
    | ok _ =>
      rw [goes_on, goes_on, beside c'.protocol_engine c]
      rfl
  refine ⟨(congrArg (·.1) went).symm, ?_, ?_, ?_, fun a returned => ?_⟩
  · exact (congrArg (·.2.session_state) went).symm
  · exact (congrArg (·.2.state) went).symm
  · rw [leaves.queued, leaves'.queued]
    exact .cons similar .nil
  · -- What went on returned, so the packets were sent.
    have arrived : r = .ok () := by
      cases r with
      | error halt => cases returned
      | ok _ => rfl
    rw [leaves.sent arrived, leaves'.sent arrived]
    exact .cons similar .nil

/-! ### The calls -/

/-- The PUBLISH of a publish, with the topic alias. -/
def publication (c : Client .v5) (topic : TopicName) (payload : Bytes) (config : PublishConfig)
    (topic_alias : Option UInt16) : V5.Packet :=
  .Publish {
    dup := false, qos_pid := Resume.carrying c.session_state.next_pid config.qos, retain := config.retain
    topic_name := topic, payload := payload, properties := { topic_alias := topic_alias } }

/-- The alias that an extended publish gives the topic. -/
def assigned (c : Client .v5) (topic : TopicName) : UInt16 :=
  (c.protocol_engine.handler.topic_aliases.lookup topic).getD c.protocol_engine.handler.next_topic_alias

/-- Packets that are the same but for the topic alias of a PUBLISH. -/
def UpToAlias (packet packet' : V5.Packet) : Prop := ∃ publish topic_alias, packet' = .Publish publish ∧
  packet = .Publish { publish with properties := { publish.properties with topic_alias := topic_alias } }

/-- The end of both publish operations. -/
def deliver (packet : V5.Packet) : ClientM V5Handler V5.Packet ErrorV5 Unit :=
  zoom engine (send_packet packet) >>= fun _ => modify fun c => { c with state := c.state.record_message_sent }

theorem exec_publish (linked : c.protocol_engine.connected = true) (admitted : Admitted c) (topic : TopicName)
    (payload : Bytes) (config : PublishConfig) : exec (MqttClient.publish topic payload config) c =
      exec (deliver (publication c topic payload config none)) (ready c topic payload config) := by
  refine (exec_checks admitted _).trans ?_
  simp only [MqttProtocolEngine.publish, zoom_bind, zoom_get, zoom_ite, zoom_fail, zoom_ofExcept, zoom_first, zoom_pure,
    bind_assoc, pure_bind]
  rw [exec_bind, exec_get]
  simp only [MqttClient.engineSession_get, linked, Bool.not_true, Bool.false_eq_true, if_false, bind_assoc, pure_bind]
  rcases config with ⟨qos, retain⟩
  cases qos with
  | Level0 => rfl
  | Level1 | Level2 => rfl

theorem exec_publish_v5 (admitted : Admitted c) (topic : TopicName) (payload : Bytes) (config : PublishConfig) :
    ∃ handler, exec (MqttClient.publish_v5 topic payload config {}) c =
      exec (deliver (publication c topic payload config (some (assigned c topic))))
        (withEngine { (ready c topic payload config).protocol_engine with handler := handler }
          (ready c topic payload config)) := by
  rcases config with ⟨qos, retain⟩
  by_cases level : qos = .Level0
  · subst level
    have carried : qos_pid .Level0 none = .ok .Level0 := rfl
    obtain ⟨handler, created⟩ := create_publish_default topic retain payload carried c.protocol_engine.handler
    have unnumbered : exec (zoom engineSession (publish_pid .Level0)) c = (.ok none, c) := rfl
    refine ⟨handler, (exec_checks admitted fun _ => _).trans ?_⟩
    rw [exec_bind, unnumbered]
    simp only [created]
    rfl
  · obtain ⟨qp, carried, -⟩ := publish_pid_level level c.session_state.next_pid
    obtain ⟨handler, created⟩ := create_publish_default topic retain payload carried c.protocol_engine.handler
    refine ⟨handler, (exec_checks admitted fun _ => _).trans ?_⟩
    rw [exec_bind, exec_publish_pid level]
    simp only [created]
    rw [ready, if_neg level, Resume.carrying_eq carried]
    rfl

/-- The SUBSCRIBE of a request. -/
def subscription (c : Client .v5) (subscriptions : List (TopicFilter × QoS)) : V5.Packet :=
  .Subscribe {
    pid := c.session_state.next_pid, topics := subscriptions.map fun (filter, qos) => (filter, ⟨qos⟩), properties := {} }

/-- The rest of both subscribe operations, once the identifier was taken. -/
def subscribing (c : Client .v5) (subscriptions : List (TopicFilter × QoS)) : ClientM V5Handler V5.Packet ErrorV5 Unit :=
  zoom engine (send_packet (subscription c subscriptions)) >>= fun _ =>
    MqttClient.add_subscriptions c.session_state.next_pid subscriptions

theorem exec_subscribe_multiple (connected : c.state.connection_state = .Connected)
    (linked : c.protocol_engine.connected = true) (first : TopicFilter × QoS) (rest : List (TopicFilter × QoS)) :
    exec (MqttClient.subscribe_multiple (first :: rest)) c = exec (subscribing c (first :: rest)) (handed_out c) := by
  refine (exec_whenConnected connected _).trans ?_
  simp only [List.isEmpty_cons, Bool.false_eq_true, if_false, MqttProtocolEngine.subscribe, zoom_bind, zoom_get, zoom_ite,
    zoom_fail, zoom_ofExcept, zoom_first, zoom_pure, bind_assoc, pure_bind]
  rw [exec_bind, exec_get]
  simp only [MqttClient.engineSession_get, linked, Bool.not_true, Bool.false_eq_true, if_false, bind_assoc, pure_bind]
  rfl

theorem exec_subscribe_v5 (connected : c.state.connection_state = .Connected) (first : TopicFilter × QoS)
    (rest : List (TopicFilter × QoS)) :
    exec (MqttClient.subscribe_v5 (first :: rest) {}) c = exec (subscribing c (first :: rest)) (handed_out c) :=
  exec_whenConnected connected _

/-- A packet that cannot be encoded is not sent. -/
theorem exec_unencoded {packet : V5.Packet} {err : ErrorV5} (refused : Codec.encode packet = .error err)
    (next : ClientM V5Handler V5.Packet ErrorV5 α) (c : Client .v5) :
    exec (zoom engine (send_packet packet) >>= fun _ => next) c = (.error (.err (.Protocol (.V5Specific err))), c) := by
  have refuses : encode_packet c.protocol_engine.handler packet = .error err := refused
  simp only [send_packet, zoom_bind, zoom_get, zoom_ofExcept, bind_assoc, pure_bind]
  rw [exec_bind, exec_get]
  simp only [MqttClient.engine_get, refuses]
  rfl

/-! ### Agreement -/

/-- The packet of either publish can be encoded. -/
def BothEncode (c : Client .v5) (topic : TopicName) (payload : Bytes) (config : PublishConfig) : Prop :=
  Encodes (publication c topic payload config none) ∧ Encodes (publication c topic payload config (some (assigned c topic)))

theorem publish_agrees (clock : world.now = world'.now) (idle : c.Idle)
    (linked : c.state.connection_state = .Connected → c.protocol_engine.connected = true) {topic : TopicName}
    {payload : Bytes} {config : PublishConfig} (encode : Admitted c → BothEncode c topic payload config)
    (same : outcomes (since c.protocol_engine.log (exec (MqttClient.publish_v5 topic payload config {}) (c.withWorld world)).2) =
      outcomes (since c.protocol_engine.log (exec (MqttClient.publish topic payload config) (c.withWorld world')).2)) :
    SameOutcome UpToAlias c.protocol_engine.log (exec (MqttClient.publish_v5 topic payload config {}) (c.withWorld world))
      (exec (MqttClient.publish topic payload config) (c.withWorld world')) := by
  by_cases admitted : Admitted c
  · obtain ⟨plain, aliased⟩ := encode admitted
    obtain ⟨handler, run⟩ := exec_publish_v5 (c := c.withWorld world) (admitted_withWorld.mpr admitted) topic payload config
    have run' := exec_publish (c := c.withWorld world') (linked admitted.1) (admitted_withWorld.mpr admitted) topic payload config
    rw [run, run'] at same ⊢
    have twins := (ready_twins clock idle topic payload config).handler handler
    exact sending_agrees ⟨_, _, rfl, rfl⟩ aliased plain counting twins same
  · have refused : ∀ world, ¬ Admitted (c.withWorld world) := fun world within => admitted (admitted_withWorld.mp within)
    have run : exec (MqttClient.publish_v5 topic payload config {}) (c.withWorld world) = _ :=
      exec_checks_refused (refused world) _
    have run' : exec (MqttClient.publish topic payload config) (c.withWorld world') = _ := exec_checks_refused (refused world') _
    rw [run, run']
    exact (start_twins idle).unsent _ _

theorem subscribe_agrees (idle : c.Idle)
    (linked : c.state.connection_state = .Connected → c.protocol_engine.connected = true)
    {subscriptions : List (TopicFilter × QoS)}
    (same : outcomes (since c.protocol_engine.log (exec (MqttClient.subscribe_v5 subscriptions {}) (c.withWorld world)).2) =
      outcomes (since c.protocol_engine.log (exec (MqttClient.subscribe_multiple subscriptions) (c.withWorld world')).2)) :
    SameOutcome Eq c.protocol_engine.log (exec (MqttClient.subscribe_v5 subscriptions {}) (c.withWorld world))
      (exec (MqttClient.subscribe_multiple subscriptions) (c.withWorld world')) := by
  by_cases connected : c.state.connection_state = .Connected
  swap
  · have run : exec (MqttClient.subscribe_v5 subscriptions {}) (c.withWorld world) = _ :=
      exec_unconnected (c := c.withWorld world) connected _
    have run' : exec (MqttClient.subscribe_multiple subscriptions) (c.withWorld world') = _ :=
      exec_unconnected (c := c.withWorld world') connected _
    rw [run, run']
    exact (start_twins idle).unsent _ _
  cases subscriptions with
  | nil =>
    have run : exec (MqttClient.subscribe_v5 [] {}) (c.withWorld world) = (.ok (), c.withWorld world) :=
      exec_whenConnected (c := c.withWorld world) connected _
    have run' : exec (MqttClient.subscribe_multiple []) (c.withWorld world') = (.ok (), c.withWorld world') :=
      exec_whenConnected (c := c.withWorld world') connected _
    rw [run, run']
    exact (start_twins idle).unsent _ _
  | cons first rest =>
    have run := exec_subscribe_v5 (c := c.withWorld world) connected first rest
    have run' := exec_subscribe_multiple (c := c.withWorld world') connected (linked connected) first rest
    rw [run, run'] at same ⊢
    cases encoding : Codec.encode (subscription c (first :: rest)) with
    | error err =>
      have stopped : ∀ world, exec (subscribing (c.withWorld world) (first :: rest)) (handed_out (c.withWorld world)) = _ :=
        fun world => exec_unencoded encoding _ _
      rw [stopped world, stopped world']
      exact (handed_out_twins idle).unsent _ _
    | ok bytes => exact sending_agrees rfl ⟨bytes, encoding⟩ ⟨bytes, encoding⟩ (adding _ _) (handed_out_twins idle) same

variable [Codec V3.Packet MqttProtoError]

end

section
local instance : Codec V3.Packet MqttProtoError := Wire.v3Codec
local instance : Codec V5.Packet ErrorV5 := Wire.v5Codec

/-- A client that is connected and has given an alias already. -/
def publishing : Client .v5 := Client.run (MqttClient.new (.obliging true []) (Version.handler .v5 {}) {})
  [⟨.connect, .obliging true [.Connack ⟨false, 0, {}⟩]⟩,
    ⟨.publish_v5 "a" [] ⟨.Level0, false⟩ {}, .obliging true []⟩]

theorem publishing_reachable : publishing.Reachable := ⟨_, {}, _, _, rfl⟩

end

end Masaka.Extended
