import Masaka.Reconnect

/-!
Receiving at level 2. A client keeps no record of the identifiers it has received:
a PUBLISH that comes again is delivered again, and answered again.
-/
namespace Masaka.Reception
open Effect Tables Runs MqttProtocolHandler LawfulHandler Sending
open MqttProtocolEngine hiding publish
open MqttClient (engine engineSession)

/-- What a message says. -/
structure Content where
  topic : TopicName
  retain : Bool
  payload : Bytes
  deriving DecidableEq

/-- What a received message of level 2 with the identifier says. -/
def delivered (pid : Pid) (message : ReceivedMessage) : Option Content :=
  if message.qos = .Level2 ∧ message.packet_id = some pid then some ⟨message.topic, message.retain, message.payload⟩
  else none

/-- The messages of level 2 with the identifier that a call emits. -/
def emitted (pid : Pid) : Except (Halt MqttError) Reply → List Content
  | .ok (.event (some (.MessageReceived message))) => (delivered pid message).toList
  | _ => []

/-- The ones that it has appended to the receive queue: of the messages at its end, as many as were counted. -/
def appended (pid : Pid) (before after : ClientState) : List Content :=
  let count := (after.stats.publishes_received - before.stats.publishes_received).toNat
  (after.received_messages.drop (after.received_messages.length - count)).filterMap (delivered pid)

theorem appended_none (pid : Pid) {before after : ClientState}
    (counted : after.stats.publishes_received = before.stats.publishes_received) : appended pid before after = [] := by
  simp [appended, counted]
theorem appended_add (pid : Pid) (message : ReceivedMessage) (state : ClientState) :
    appended pid state (state.add_received_message message) = (delivered pid message).toList := by
  have one : (state.stats.publishes_received + 1 - state.stats.publishes_received).toNat = 1 := by
    rw [UInt32.add_comm, UInt32.add_sub_cancel]
    rfl
  simp only [appended, ClientState.add_received_message, one, List.length_append, List.length_singleton,
    Nat.add_sub_cancel, List.drop_left]
  cases found : delivered pid message <;> simp [found]

section
variable {H P E α : Type} [MqttProtocolHandler H P E] [LawfulHandler H P E]

/-- What a PUBLISH of level 2 with the identifier says. -/
def published (H : Type) {P E : Type} [MqttProtocolHandler H P E] [LawfulHandler H P E] (pid : Pid) (packet : P) :
    Option Content :=
  match shape (H := H) packet with
  | .publish publish =>
    if publish.qos_pid = .Level2 pid then some ⟨publish.topic_name, publish.retain, publish.payload⟩ else none
  | _ => none

/-- The copies that arrived of PUBLISH packets of level 2 with the identifier. -/
def copies (H : Type) {P E : Type} [MqttProtocolHandler H P E] [LawfulHandler H P E] (pid : Pid)
    (events : List (Event P)) : List Content := events.filterMap fun
  | .received packet => published H pid packet
  | _ => none

/-- The PUBREC packets with the identifier that were sent. -/
def answers (H : Type) {P E : Type} [MqttProtocolHandler H P E] [LawfulHandler H P E] (pid : Pid)
    (events : List (Event P)) : List P :=
  (packets_sent events).filter fun packet => shape (H := H) packet = .pubrec pid

@[simp] theorem copies_append (pid : Pid) (events more : List (Event P)) :
    copies H pid (events ++ more) = copies H pid events ++ copies H pid more := List.filterMap_append
@[simp] theorem answers_append (pid : Pid) (events more : List (Event P)) :
    answers H pid (events ++ more) = answers H pid events ++ answers H pid more := by
  simp [answers, packets_sent]

theorem copies_received (pid : Pid) (packet : P) (time : Nat) :
    copies H pid [.received packet, .clock time] = (published H pid packet).toList := by
  cases found : published H pid packet <;> simp [copies, found]

/-- The replies can be sent: the transport refuses nothing, and every PUBREC can be encoded. -/
structure Carries (H : Type) {P E : Type} [MqttProtocolHandler H P E] (world : World P E) : Prop where
  write : Taking world.write
  flush : ∀ n, world.flush n = some (.ok ())
  encode : ∀ (h : H) pid packet, create_pubrec_packet h pid = .ok packet → ∃ bytes, encode_packet h packet = .ok bytes

/-- If the next packet is a message of level 2 with the identifier, the replies can be sent. -/
def Answerable (H : Type) {P E : Type} [MqttProtocolHandler H P E] [LawfulHandler H P E] (pid : Pid)
    (world : World P E) : Prop :=
  ∀ packet, world.read 0 = .packet packet → published H pid packet ≠ none → Carries H world

/-- An event that is neither the arrival of a packet nor the end of a PUBREC with the identifier. -/
def Aloof (H : Type) {P E : Type} [MqttProtocolHandler H P E] [LawfulHandler H P E] (pid : Pid) : Event P → Prop
  | .received _ => False
  | .sent frame => shape (H := H) frame.packet ≠ .pubrec pid
  | _ => True

theorem copies_aloof {pid : Pid} {events : List (Event P)} (aloof : ∀ event ∈ events, Aloof H pid event) :
    copies H pid events = [] := by
  refine List.filterMap_eq_nil_iff.mpr fun event member => ?_
  have := aloof event member
  cases event <;> first | rfl | exact this.elim
theorem answers_aloof {pid : Pid} {events : List (Event P)} (aloof : ∀ event ∈ events, Aloof H pid event) :
    answers H pid events = [] := by
  refine List.filter_eq_nil_iff.mpr fun packet member => ?_
  obtain ⟨event, member, sent⟩ := List.mem_filterMap.mp member
  have := aloof event member
  cases event with
  | sent frame => cases sent; simpa [Aloof] using this
  | _ => cases sent

theorem transmission_copies {pid : Pid} {tape rest : Tape} {flush : Answer Unit} {frame : Frame P}
    {events : List (Event P)} {r : Except (Halt MqttError) Unit}
    (transmission : Transmission tape flush frame events rest r) : copies H pid events = [] :=
  List.filterMap_eq_nil_iff.mpr (transmission.all rfl (fun _ _ => rfl) rfl (fun _ => rfl) fun _ => rfl)

/-- What a client does without receiving anything. -/
structure Aside (pid : Pid) (c c' : MqttClient H P E) : Prop where
  idle : c'.Idle
  log : ∃ events, c'.protocol_engine.log = c.protocol_engine.log ++ events ∧ ∀ event ∈ events, Aloof H pid event
  counted : c'.state.stats.publishes_received = c.state.stats.publishes_received
  carries : Carries H c.protocol_engine.world → Carries H c'.protocol_engine.world
  read : c'.protocol_engine.world.read = c.protocol_engine.world.read

/-- An idle client does nothing but what is aside. -/
def Leads (pid : Pid) (c c' : MqttClient H P E) : Prop := c.Idle → Aside pid c c'

variable {pid : Pid} {c c' : MqttClient H P E}

theorem Leads.refl (c : MqttClient H P E) : Leads pid c c :=
  fun idle => ⟨idle, ⟨[], by simp⟩, rfl, id, rfl⟩
theorem Leads.trans {c'' : MqttClient H P E} (first : Leads pid c c') (second : Leads pid c' c'') : Leads pid c c'' := by
  intro idle
  obtain ⟨idle', ⟨events, log, aloof⟩, counted, carries, read⟩ := first idle
  obtain ⟨idle'', ⟨more, log', aloof'⟩, counted', carries', read'⟩ := second idle'
  refine ⟨idle'', ⟨events ++ more, by rw [log', log, List.append_assoc], ?_⟩, counted'.trans counted, carries' ∘ carries,
    read'.trans read⟩
  exact List.forall_mem_append.mpr ⟨aloof, aloof'⟩

instance : Std.Refl (Leads (H := H) (P := P) (E := E) pid) := ⟨Leads.refl⟩
instance : IsTrans (MqttClient H P E) (Leads pid) := ⟨fun _ _ _ => Leads.trans⟩

theorem Leads.event (event : Event P) (aloof : Aloof H pid event)
    (queue : c'.protocol_engine.write_queue = c.protocol_engine.write_queue)
    (log : c'.protocol_engine.log = c.protocol_engine.log ++ [event])
    (counted : c'.state.stats.publishes_received = c.state.stats.publishes_received)
    (write : c'.protocol_engine.world.write = c.protocol_engine.world.write)
    (flush : c'.protocol_engine.world.flush = c.protocol_engine.world.flush)
    (read : c'.protocol_engine.world.read = c.protocol_engine.world.read) : Leads pid c c' := fun idle =>
  ⟨queue.trans idle, ⟨[event], log, by simpa using aloof⟩, counted,
    fun carries => ⟨by rw [write]; exact carries.write, by rw [flush]; exact carries.flush, carries.encode⟩, read⟩

theorem Leads.aside (engine : c'.protocol_engine = c.protocol_engine)
    (counted : c'.state.stats.publishes_received = c.state.stats.publishes_received) : Leads pid c c' := fun idle =>
  ⟨by rw [MqttClient.Idle, engine]; exact idle, ⟨[], by simp [engine], by simp⟩, counted, by rw [engine]; exact id,
    by rw [engine]⟩

omit [LawfulHandler H P E] in
theorem Carries.sent {packet : P} {r : Except (Halt MqttError) Unit} {e e' : MqttProtocolEngine H P E}
    (sent : Sent packet e r e') (carries : Carries H e.world) : Carries H e'.world := by
  cases sent with
  | unencoded _ => exact carries
  | encoded _ transmission flush =>
    refine ⟨transmission.taking carries.write, fun n => ?_, carries.encode⟩
    rcases flush with rfl | rfl
    · exact carries.flush n
    · exact carries.flush (n + 1)

/-- Sending a packet other than a PUBREC. -/
theorem Leads.sent {packet : P} {r : Except (Halt MqttError) Unit} {e : MqttProtocolEngine H P E}
    (sent : Sent packet c.protocol_engine r e) (other : shape (H := H) packet ≠ .pubrec pid) :
    Leads pid c (engine.set e c) := by
  intro idle
  refine ⟨sent.idle idle, ?_, rfl, Carries.sent sent, sent.frame.2.2.2.2⟩
  cases sent with
  | unencoded _ => exact ⟨[], by simp⟩
  | encoded _ transmission _ =>
    exact ⟨_, rfl, transmission.all trivial (fun _ _ => trivial) other (fun _ => trivial) fun _ => trivial⟩

theorem sending {packet : P} (other : shape (H := H) packet ≠ .pubrec pid) :
    Moves (Leads pid) (zoom engine (send_packet (H := H) packet)) := fun _ idle =>
  Leads.sent (send_packet_spec packet idle) other idle

/-! ### What a poll does before it waits for a packet -/

theorem clock : Moves (Leads pid) (zoom engine current_timestamp_ms : ClientM H P E Nat) := fun _ =>
  Leads.event (.clock _) trivial rfl rfl rfl rfl rfl rfl

theorem entering (new : ConnectionState) : Moves (Leads pid) (MqttClient.set_connection_state new : ClientM H P E Unit) :=
  fun _ => Leads.aside rfl (ClientState.count_change_received ..)

/-- An operation of the session. -/
theorem onSession (f : InMemorySession → α × InMemorySession) :
    Moves (Leads pid) (zoom engineSession (onSession f) : ClientM H P E α) := fun _ => Leads.aside rfl rfl

theorem trySession (f : InMemorySession → Except MqttError α × InMemorySession) :
    Moves (Leads pid) (zoom engineSession (trySession f) : ClientM H P E α) := by
  simp only [MqttProtocolEngine.trySession, zoom_bind, zoom_ofExcept]
  exact (onSession f).bind fun _ => Moves.ofExcept _ _

/-- Sending a packet other than a PUBREC, if it can be created. -/
theorem sending_created {create : Except E P}
    (other : ∀ packet, create = .ok packet → shape (H := H) packet ≠ .pubrec pid) :
    Moves (Leads (H := H) pid) (zoom engineSession (ofExcept (into H) create >>= fun packet =>
      zoom first (send_packet packet))) := by
  simp only [zoom_bind, zoom_ofExcept, Operations.zoom_first]
  exact Moves.bind_ofExcept fun packet created => sending (other packet created)

theorem ping : Moves (Leads pid) (MqttClient.ping (H := H)) := by
  refine Moves.get.bind fun c => Moves.ite (fun _ => Moves.fail _) fun _ => ?_
  simp only [MqttProtocolEngine.ping, zoom_bind, zoom_get, zoom_ite, zoom_fail, bind_assoc, pure_bind]
  refine Moves.get.bind fun c => Moves.ite (fun _ => Moves.fail _) fun _ => sending ?_
  rw [LawfulHandler.pingreq]
  exact fun same => by cases same

theorem retry_publish (current_time : Nat) (pending : Pid) :
    Moves (Leads pid) (zoom engineSession (retry_publish (H := H) current_time pending)) := by
  simp only [MqttProtocolEngine.retry_publish, zoom_bind, zoom_get, bind_assoc, pure_bind]
  refine Moves.get.bind fun c => ?_
  simp only [MqttClient.engineSession_get]
  cases SessionState.get_outgoing_publish_mut pending c.session_state with
  | none => exact fun c => Leads.refl c
  | some found =>
    simp only [zoom_bind]
    refine (onSession _).bind fun _ => ?_
    rw [← zoom_bind]
    refine sending_created fun packet created => ?_
    obtain ⟨qp, -, shaped⟩ := LawfulHandler.publish _ _ _ _ _ _ _ _ created
    rw [shaped]
    exact fun same => by cases same

theorem retry_pubrel (current_time : Nat) (pending : Pid) :
    Moves (Leads pid) (zoom engineSession (retry_pubrel (H := H) current_time pending)) := by
  simp only [MqttProtocolEngine.retry_pubrel, zoom_bind, zoom_get, bind_assoc, pure_bind, zoom_ofExcept, zoom_ite,
    Operations.zoom_first, zoom_pure]
  refine Moves.get.bind fun c => ?_
  obtain ⟨packet, created, shaped⟩ := LawfulHandler.pubrel (engineSession.get c).1.handler pending
  rw [created, ofExcept_ok, pure_bind]
  refine Moves.ite (fun _ => sending ?_) fun _ => Moves.pure _
  rw [shaped]
  exact fun same => by cases same

theorem handle_retries (current_time : Nat) :
    Moves (Leads pid) (zoom engineSession (handle_retries (H := H) current_time)) := by
  simp only [MqttProtocolEngine.handle_retries, zoom_bind, zoom_get, bind_assoc, pure_bind, zoom_forM]
  refine Moves.get.bind fun c => (Moves.forM (fun _ => (onSession _).bind fun _ => Moves.pure _) _).bind fun _ => ?_
  refine (Moves.forM (retry_publish current_time) _).bind fun _ => Moves.get.bind fun c => ?_
  exact Moves.forM (retry_pubrel current_time) _

/-- A connect of an engine whose flag is set. -/
theorem connect_refused (flag : c.protocol_engine.connected = true) :
    wp MqttClient.connect c fun r c' => (∀ a, r ≠ .ok a) ∧ Leads pid c c' := by
  have begun : Leads pid c (Reconnect.beginning c) := by
    rw [Reconnect.beginning]
    cases c.config.clean_session with
    | false => exact entering .Connecting c
    | true => exact (entering .Connecting c).trans (Leads.event .cleared trivial rfl rfl rfl rfl rfl rfl)
  refine Reconnect.connect_flagged flag (fun err => ?_) ?_
  · exact ⟨error_ne_ok _, Leads.refl c⟩
  · exact ⟨error_ne_ok _, begun.trans (entering .Error (Reconnect.beginning c))⟩

theorem reconnect_refused (pid : Pid) (flag : c.protocol_engine.connected = true) :
    wp MqttClient.reconnect c fun r c' => (∀ a, r ≠ .ok a) ∧ Leads pid c c' := by
  have waits : ∀ interval, Leads pid c (Reconnect.waited interval c) := fun interval =>
    Leads.event (.delay interval) trivial rfl rfl rfl rfl rfl rfl
  refine Reconnect.reconnect_seq (fun _ err => ⟨error_ne_ok _, Leads.refl c⟩)
    (fun interval => ⟨error_ne_ok _, waits interval⟩) fun _ _ _ interval => ?_
  exact wp_mono (connect_refused (by exact flag)) fun _ _ after => ⟨after.1, (waits interval).trans after.2⟩

/-! ### Receiving -/

/-- What the action delivers. -/
def delivers (pid : Pid) : PacketAction → Option Content
  | .PublishReceived topic qos retain payload packet_id =>
    if qos = .Level2 ∧ packet_id = some pid then some ⟨topic, retain, payload⟩ else none
  | _ => none

theorem level_two {qp : QosPid} {pid : Pid} : qp = .Level2 pid ↔ qp.qos = .Level2 ∧ qp.pid = some pid := by
  cases qp <;> simp [QosPid.qos, QosPid.pid]

theorem published_handled (pid : Pid) {h : H} {packet : P} {action : PacketAction}
    (handled : handle_packet h packet = .ok action) : published H pid packet = delivers pid action := by
  cases shaped : shape (H := H) packet with
  | publish publish =>
    have asked := LawfulHandler.handle h packet _ (by rw [shaped]; rfl)
    cases handled.symm.trans asked
    simp only [published, shaped, delivers, level_two]
  | _ =>
    simp only [published, shaped]
    by_cases other : action = .None
    · rw [other]; rfl
    · have same := LawfulHandler.handled h packet action handled other
      rw [shaped] at same
      cases same <;> rfl

theorem published_unhandled (pid : Pid) {h : H} {packet : P} {err : E} (failed : handle_packet h packet = .error err) :
    published H pid packet = none := by
  cases shaped : shape (H := H) packet with
  | publish publish =>
    have asked := LawfulHandler.handle h packet _ (by rw [shaped]; rfl)
    cases failed.symm.trans asked
  | _ => simp only [published, shaped]

/-- A reply that is not a PUBREC with the identifier. -/
theorem reply {create : H → Pid → Except E P} {shaped : Pid → Shape}
    (lawful : ∀ h pid, ∃ packet, create h pid = .ok packet ∧ shape (H := H) packet = shaped pid) {replied : Pid}
    (other : shaped replied ≠ .pubrec pid) : Moves (Leads (H := H) pid) (zoom engineSession (do
      let (e, _) ← get
      let packet ← ofExcept (into H) (create e.handler replied)
      zoom first (send_packet packet))) := by
  simp only [zoom_bind, zoom_get, zoom_ofExcept, Operations.zoom_first, bind_assoc, pure_bind]
  refine Moves.get.bind fun c => ?_
  obtain ⟨packet, created, shape⟩ := lawful (engineSession.get c).1.handler replied
  rw [created, ofExcept_ok, pure_bind]
  exact sending (by rw [shape]; exact other)

/-- What is done with an action that does not deliver the identifier. -/
theorem acknowledge_other {action : PacketAction} (other : delivers pid action = none) :
    Moves (Leads (H := H) pid) (zoom engineSession (acknowledge (H := H) action)) := by
  cases action with
  | PublishAck _ =>
    simp only [MqttProtocolEngine.acknowledge, zoom_bind, zoom_pure]
    exact (onSession _).bind fun _ => Moves.pure _
  | PublishComplete _ =>
    simp only [MqttProtocolEngine.acknowledge, zoom_bind, zoom_pure]
    exact (onSession _).bind fun _ => (onSession _).bind fun _ => Moves.pure _
  | PublishRec released =>
    simp only [MqttProtocolEngine.acknowledge, zoom_bind]
    refine (onSession _).bind fun found => ?_
    cases found with
    | none => exact fun c => Leads.refl c
    | some message =>
      simp only [zoom_bind, zoom_get, zoom_ofExcept, Operations.zoom_first, bind_assoc, pure_bind]
      refine Moves.get.bind fun c => ?_
      obtain ⟨packet, created, shape⟩ := LawfulHandler.pubrel (engineSession.get c).1.handler released
      rw [created, ofExcept_ok, pure_bind]
      exact (sending (by rw [shape]; exact fun same => by cases same)).bind fun _ => trySession _
  | PublishRelease _ => exact reply LawfulHandler.pubcomp fun same => by cases same
  | PublishReceived topic qos retain payload packet_id =>
    cases packet_id with
    | none => cases qos <;> exact Moves.pure _
    | some replied =>
      cases qos with
      | Level0 => exact Moves.pure _
      | Level1 => exact reply LawfulHandler.puback fun same => by cases same
      | Level2 =>
        refine reply LawfulHandler.pubrec fun same => ?_
        cases same
        simp [delivers] at other
  | ConnectAck _ _ | SubscribeAck _ _ | UnsubscribeAck _ | PingResponse | None => exact Moves.pure _

/-- The PUBREC that answers a message. -/
theorem acknowledge_delivered (topic : TopicName) (retain : Bool) (payload : Bytes) (idle : c.Idle)
    (carries : Carries H c.protocol_engine.world) :
    wp (zoom engineSession (acknowledge (H := H) (.PublishReceived topic .Level2 retain payload (some pid)))) c
      fun r c' => r = .ok () ∧ c'.state = c.state ∧ ∃ events,
        c'.protocol_engine.log = c.protocol_engine.log ++ events ∧ copies H pid events = [] ∧
          (answers H pid events).length = 1 := by
  obtain ⟨packet, created, shaped⟩ := LawfulHandler.pubrec c.protocol_engine.handler pid
  obtain ⟨bytes, encodes⟩ := carries.encode _ _ _ created
  simp only [acknowledge, wp_zoom, wp_bind, wp_get, MqttClient.engineSession_get, created, wp_ofExcept]
  refine wp_mono (send_packet_spec (e := c.protocol_engine) packet idle) fun r e' sent => ?_
  obtain ⟨rfl, events, rest, log, transmission⟩ := sent.succeeds encodes carries.write (carries.flush 0)
  refine ⟨rfl, rfl, events, log, transmission_copies transmission, ?_⟩
  rw [answers, (transmission_wrote transmission).sent]
  simp [shaped]

/-- An action that delivers the identifier is answered with a PUBREC, if it can be sent. -/
theorem acknowledge_spec {action : PacketAction} (idle : c.Idle)
    (carries : delivers pid action ≠ none → Carries H c.protocol_engine.world) :
    wp (zoom engineSession (acknowledge (H := H) action)) c fun r c' =>
      (delivers pid action ≠ none → r = .ok ()) ∧
        c'.state.stats.publishes_received = c.state.stats.publishes_received ∧ ∃ events,
          c'.protocol_engine.log = c.protocol_engine.log ++ events ∧ copies H pid events = [] ∧
            (answers H pid events).length = (delivers pid action).toList.length := by
  cases delivery : delivers pid action with
  | none =>
    refine wp_mono ((acknowledge_other delivery).wp c) fun r c' leads => ?_
    obtain ⟨events, log, aloof⟩ := (leads idle).log
    exact ⟨fun some => absurd rfl some, (leads idle).counted, events, log, copies_aloof aloof,
      congrArg List.length (answers_aloof aloof)⟩
  | some content =>
    have sendable := carries (by simp [delivery])
    unfold delivers at delivery
    split at delivery
    · split at delivery
      · rename_i levels
        obtain ⟨rfl, rfl⟩ := levels
        refine wp_mono (acknowledge_delivered _ _ _ idle sendable) fun r c' answered => ?_
        obtain ⟨done, state, answer⟩ := answered
        exact ⟨fun _ => done, by rw [state], answer⟩
      · cases delivery
    · cases delivery

/-- What arrived is emitted, appended and answered, copy by copy. -/
def Handles (pid : Pid) (c : MqttClient H P E) (r : Except (Halt MqttError) (Option ClientEvent))
    (c' : MqttClient H P E) : Prop :=
  ∃ events, c'.protocol_engine.log = c.protocol_engine.log ++ events ∧
    emitted pid (r.map Reply.event) = copies H pid events ∧ appended pid c.state c'.state = copies H pid events ∧
      (answers H pid events).length = (copies H pid events).length

/-- Nothing arrives. -/
theorem Handles.aside {r : Except (Halt MqttError) (Option ClientEvent)} (aside : Aside pid c c')
    (silent : emitted pid (r.map Reply.event) = []) : Handles pid c r c' := by
  obtain ⟨events, log, aloof⟩ := aside.log
  refine ⟨events, log, ?_⟩
  rw [copies_aloof aloof, answers_aloof aloof, appended_none pid aside.counted]
  exact ⟨silent, rfl, rfl⟩

/-- What is done before changes nothing. -/
theorem Handles.after {c'' : MqttClient H P E} {r : Except (Halt MqttError) (Option ClientEvent)}
    (aside : Aside pid c c') (handles : Handles pid c' r c'') : Handles pid c r c'' := by
  obtain ⟨events, log, aloof⟩ := aside.log
  obtain ⟨more, log', balanced⟩ := handles
  refine ⟨events ++ more, by rw [log', log, List.append_assoc], ?_⟩
  have same : appended pid c.state c''.state = appended pid c'.state c''.state := by
    rw [appended, appended, aside.counted]
  rw [copies_append, answers_append, copies_aloof aloof, answers_aloof aloof, List.nil_append, List.nil_append, same]
  exact balanced

/-- What an action delivers is emitted and appended. -/
theorem handle_packet_action_spec (pid : Pid) (action : PacketAction) (c : MqttClient H P E) :
    wp (MqttClient.handle_packet_action action) c fun r c' => ∃ events,
      c'.protocol_engine.log = c.protocol_engine.log ++ events ∧ copies H pid events = [] ∧ answers H pid events = [] ∧
        emitted pid (r.map Reply.event) = (delivers pid action).toList ∧
          appended pid c.state c'.state = (delivers pid action).toList := by
  cases action with
  | PublishReceived topic qos retain payload packet_id =>
    exact ⟨[.clock _], rfl, rfl, rfl, rfl, appended_add pid _ c.state⟩
  | SubscribeAck confirmed codes =>
    rw [MqttClient.handle_packet_action, wp_bind, wp, Operations.exec_trySession]
    cases (SessionState.confirm_subscription confirmed codes c.session_state).1 <;>
      exact ⟨[], (List.append_nil _).symm, rfl, rfl, rfl, appended_none pid rfl⟩
  | _ => exact ⟨[], (List.append_nil _).symm, rfl, rfl, rfl, appended_none pid rfl⟩

/-- A receive that ends in an error. -/
theorem Handles.failed {c₁ : MqttClient H P E} {r : Except (Halt MqttError) (Option ClientEvent)}
    {events : List (Event P)} (log : c₁.protocol_engine.log = c.protocol_engine.log ++ events)
    (counted : c₁.state.stats.publishes_received = c.state.stats.publishes_received)
    (silent : copies H pid events = [] ∧ answers H pid events = []) (failed : ∀ a, r ≠ .ok a) :
    Handles pid c r c₁ := by
  refine ⟨events, log, ?_⟩
  rw [silent.1, silent.2, appended_none pid counted]
  cases r with
  | error halt => exact ⟨rfl, rfl, rfl⟩
  | ok event => exact absurd rfl (failed event)

/-- A packet that cannot be handled is no copy, and no answer. -/
theorem silent_arrival (pid : Pid) {e e' : MqttProtocolEngine H P E} {halt : Halt MqttError}
    (waited : Waited e (.error halt) e') : copies H pid (arrival e) = [] ∧ answers H pid (arrival e) = [] := by
  have outcome := waited.outcome
  unfold received at outcome
  unfold arrival
  cases answer : e.world.read 0 with
  | packet packet =>
    rw [answer] at outcome
    cases handled : handle_packet e.handler packet with
    | ok action => simp only [handled] at outcome; cases outcome
    | error err => simp [copies, answers, packets_sent, published_unhandled pid handled]
  | failed _ _ | waiting _ => exact ⟨rfl, rfl⟩

theorem receive_spec (pid : Pid) (idle : c.Idle) (answerable : Answerable H pid c.protocol_engine.world) :
    wp MqttClient.receive c (Handles (H := H) pid c) := by
  have unfolded : (zoom engineSession receive_packet : ClientM H P E PacketAction) =
      zoom engine receive_packet_unlogged >>= fun action => zoom engineSession (acknowledge action) >>= fun _ =>
        pure action := by
    simp only [MqttProtocolEngine.receive_packet, zoom_bind, Operations.zoom_first, zoom_pure]
  have reported : ∀ (err : MqttError) (c' : MqttClient H P E) (events : List (Event P)),
      c'.protocol_engine.log = c.protocol_engine.log ++ events →
      c'.state.stats.publishes_received = c.state.stats.publishes_received →
      copies H pid events = [] → answers H pid events = [] →
      wp (do MqttClient.set_connection_state .Error; fail err) c' (Handles (H := H) pid c) := by
    intro err c' events log counted none unanswered
    rw [wp_bind, MqttClient.set_connection_state, wp_modify]
    exact Handles.failed log ((ClientState.count_change_received ..).trans counted) ⟨none, unanswered⟩ (error_ne_ok _)
  rw [MqttClient.receive, wp_bind, wp_attempt, unfolded, wp_bind, wp_zoom]
  refine wp_mono (receive_packet_unlogged_spec c.protocol_engine) fun r e' waited => ?_
  cases r with
  | error halt =>
    have silent := silent_arrival pid waited
    cases halt with
    | err err => exact reported err _ _ waited.log rfl silent.1 silent.2
    | cut => exact Handles.failed (c := c) waited.log rfl silent (error_ne_ok _)
  | ok action =>
    obtain ⟨packet, arrived, handled, log⟩ := waited.arrived
    have delivery := published_handled pid handled
    have carries : delivers pid action ≠ none → Carries H e'.world := fun some => by
      have sendable := answerable packet arrived (by rw [delivery]; exact some)
      exact ⟨by rw [waited.write]; exact sendable.write, by rw [waited.flush]; exact sendable.flush, sendable.encode⟩
    simp only [wp_bind]
    refine wp_mono (acknowledge_spec (c := engine.set e' c) (waited.queue.trans idle) carries) fun r c₂ replied => ?_
    obtain ⟨done, counted, events, log', none, answered⟩ := replied
    have log : c₂.protocol_engine.log = c.protocol_engine.log ++
        ([.received packet, .clock (c.protocol_engine.world.now 0)] ++ events) := by
      rw [log', ← List.append_assoc, ← log]
      rfl
    have copied : copies H pid ([.received packet, .clock (c.protocol_engine.world.now 0)] ++ events) =
        (delivers pid action).toList := by
      rw [copies_append, none, List.append_nil, ← delivery, copies_received]
    have replies : (answers H pid ([.received packet, .clock (c.protocol_engine.world.now 0)] ++ events)).length =
        (delivers pid action).toList.length := by
      rw [answers_append, List.length_append, answered]
      exact Nat.zero_add _
    rcases r with halt | ⟨⟩
    · have undelivered : delivers pid action = Option.none := by
        by_contra some
        cases done some
      rw [undelivered] at copied replies
      cases halt with
      | err err => exact reported err c₂ _ log counted copied (List.length_eq_zero_iff.mp replies)
      | cut => exact Handles.failed log counted ⟨copied, List.length_eq_zero_iff.mp replies⟩ (error_ne_ok _)
    · simp only [wp_pure]
      refine wp_mono (handle_packet_action_spec pid action c₂) fun r c₃ acted => ?_
      obtain ⟨more, log'', silent, unanswered, emission, addition⟩ := acted
      refine ⟨[.received packet, .clock _] ++ events ++ more, by rw [log'', log, List.append_assoc], ?_⟩
      rw [copies_append, answers_append _ (_ ++ _), silent, unanswered, List.append_nil, List.append_nil, copied, replies]
      refine ⟨emission, ?_, rfl⟩
      rw [← addition, appended, appended, counted]
      rfl

theorem poll_connected_spec (idle : c.Idle) (answerable : Answerable H pid c.protocol_engine.world) :
    wp MqttClient.poll_connected c (Handles (H := H) pid c) := by
  rw [MqttClient.poll_connected]
  refine wp_seq (R := fun _ c' => Leads pid c c') (clock c) (fun time c' before => ?_)
    fun _ _ before => .aside (before idle) rfl
  rw [wp_bind, wp_get]
  simp only []
  split
  · exact .aside (before.trans (entering .Error c') idle) rfl
  refine wp_seq (R := fun _ c' => Leads pid c c')
    (before.trans (Moves.onlyIf (R := Leads pid) (fun _ => ping) c')) (fun _ c' before => ?_)
    fun _ _ before => .aside (before idle) rfl
  refine wp_seq (R := fun _ c' => Leads pid c c') (before.trans (handle_retries time c')) (fun _ c' before => ?_)
    fun _ _ before => .aside (before idle) rfl
  have aside := before idle
  refine wp_mono (receive_spec pid aside.idle fun packet arrived some => ?_) fun r c'' handles => .after aside handles
  rw [aside.read] at arrived
  exact aside.carries (answerable packet arrived some)

/-- A poll handles what arrives, or nothing arrives. -/
theorem poll_spec (pid : Pid) (idle : c.Idle) (flag : c.state.connection_state = .Connected → c.protocol_engine.connected = true)
    (answerable : Answerable H pid c.protocol_engine.world) : wp MqttClient.poll c (Handles (H := H) pid c) := by
  refine Reconnect.poll_seq (fun _ => ?_) (fun _ connected _ => reconnect_refused pid (flag connected))
    (fun _ _ c' err refused => ?_) (fun c' refused => ?_) (fun c' refused => ?_) (fun _ _ _ => ?_) fun _ _ => ?_
  · exact poll_connected_spec idle answerable
  · exact .aside (refused.2.trans (entering .Disconnected c') idle) rfl
  · exact .aside (refused.2 idle) rfl
  · exact absurd rfl (refused.1 _)
  · exact .aside (entering .Disconnected c idle) rfl
  · exact .aside (Leads.refl c idle) rfl

end

/-! ### The other operations -/

section
variable {H P E α : Type}

/-- No message is appended to the receive queue. -/
def Uncounted (c c' : MqttClient H P E) : Prop :=
  c'.state.stats.publishes_received = c.state.stats.publishes_received

instance : Std.Refl (Uncounted (H := H) (P := P) (E := E)) := ⟨fun _ => rfl⟩
instance : IsTrans (MqttClient H P E) Uncounted := ⟨fun _ _ _ first second => second.trans first⟩

theorem engine_uncounted (m : EngineM H P E α) : Moves Uncounted (zoom engine m : ClientM H P E α) := fun _ => rfl
theorem session_uncounted (m : SessionM H P E α) : Moves Uncounted (zoom engineSession m : ClientM H P E α) :=
  fun _ => rfl
theorem entering_uncounted (new : ConnectionState) :
    Moves Uncounted (MqttClient.set_connection_state new : ClientM H P E Unit) := fun _ =>
  ClientState.count_change_received ..

theorem modify_uncounted {f : MqttClient H P E → MqttClient H P E}
    (same : ∀ c, (f c).state.stats.publishes_received = c.state.stats.publishes_received) :
    Moves Uncounted (modify f : ClientM H P E PUnit) := same
theorem whenConnected_uncounted {request : ClientM H P E Unit} (requesting : Moves Uncounted request) :
    Moves Uncounted (MqttClient.whenConnected request) :=
  Moves.get.bind fun _ => Moves.ite (fun _ => Moves.fail _) fun _ => requesting
theorem add_subscriptions_uncounted (pid : Pid) (subscriptions : List (TopicFilter × QoS)) :
    Moves Uncounted (MqttClient.add_subscriptions pid subscriptions : ClientM H P E Unit) :=
  Moves.forM (fun _ => session_uncounted _) _
theorem remove_uncounted (topic_filter : TopicFilter) :
    Moves Uncounted (MqttClient.remove_local_subscription topic_filter : ClientM H P E Unit) :=
  modify_uncounted fun _ => rfl

variable [MqttProtocolHandler H P E]

theorem connect_uncounted : Moves Uncounted (MqttClient.connect (H := H)) := by
  have refused : ∀ err, Moves Uncounted
      (do MqttClient.set_connection_state .Error; fail err : ClientM H P E Unit) := fun err =>
    (entering_uncounted _).bind fun _ => Moves.fail err
  refine Moves.get.bind fun c => Moves.bind_ofExcept fun _ _ => (entering_uncounted _).bind fun _ => ?_
  refine Moves.bind (Moves.onlyIf fun _ => modify_uncounted fun _ => rfl) fun _ => ?_
  refine (engine_uncounted _).attempt.bind fun result => ?_
  cases result with
  | error err => exact refused err
  | ok action =>
    cases action with
    | ConnectAck session_present return_code =>
      refine Moves.ite (fun _ => (entering_uncounted _).bind fun _ => ?_) fun _ => refused _
      refine Moves.bind (modify_uncounted fun _ => rfl) fun _ => Moves.onlyIf fun _ => Moves.get.bind fun c => ?_
      exact Moves.forM (fun entry => Moves.get.bind fun c => Moves.bind_ofExcept fun _ _ => engine_uncounted _) _
    | _ => exact refused _

theorem subscribe_multiple_uncounted (subscriptions : List (TopicFilter × QoS)) :
    Moves Uncounted (MqttClient.subscribe_multiple (H := H) subscriptions) :=
  whenConnected_uncounted <| Moves.ite (fun _ => Moves.pure _) fun _ =>
    (session_uncounted _).bind fun _ => add_subscriptions_uncounted _ _

end

section
variable [Codec V3.Packet MqttProtoError] [Codec V5.Packet ErrorV5] {v : Version}

/-- Only a poll appends to the receive queue. -/
theorem perform_uncounted {op : Op v} (other : op ≠ .poll) : Moves Uncounted op.perform := by
  have done : ∀ {request : ClientM v.Handler v.Packet v.Error Unit}, Moves Uncounted request →
      Moves Uncounted (request >>= fun _ => pure Reply.unit) := fun moves => moves.bind fun _ => Moves.pure _
  cases op with
  | poll => exact absurd rfl other
  | connect => exact done connect_uncounted
  | reconnect =>
    refine done (Moves.get.bind fun c => Moves.ite (fun _ => Moves.fail _) fun _ => Moves.ite (fun _ => Moves.fail _) fun _ => ?_)
    exact Moves.bind (modify_uncounted fun _ => rfl) fun _ => (engine_uncounted _).bind fun _ => connect_uncounted
  | disconnect =>
    refine done (Moves.get.bind fun c => Moves.ite (fun _ => Moves.pure _) fun _ => (entering_uncounted _).bind fun _ => ?_)
    exact (engine_uncounted _).attempt.bind fun _ => (entering_uncounted _).bind fun _ => Moves.ofExcept _ _
  | publish topic payload config =>
    refine done (whenConnected_uncounted (Moves.get.bind fun c => Moves.ite (fun _ => Moves.fail _) fun _ => ?_))
    exact (session_uncounted _).bind fun _ => modify_uncounted fun _ => rfl
  | subscribe topic_filter qos =>
    exact done (whenConnected_uncounted ((session_uncounted _).bind fun _ => session_uncounted _))
  | subscribe_multiple subscriptions => exact done (subscribe_multiple_uncounted subscriptions)
  | unsubscribe topic_filter =>
    exact done (whenConnected_uncounted ((session_uncounted _).bind fun _ => remove_uncounted _))
  | unsubscribe_multiple topic_filters =>
    refine done (whenConnected_uncounted (Moves.ite (fun _ => Moves.pure _) fun _ => (session_uncounted _).bind fun _ => ?_))
    exact Moves.forM remove_uncounted _
  | ping => exact done (whenConnected_uncounted (engine_uncounted _))
  | next_message => exact fun _ => rfl
  | publish_v5 topic payload config v5_config =>
    refine done (whenConnected_uncounted (Moves.get.bind fun c => Moves.ite (fun _ => Moves.fail _) fun _ => ?_))
    refine (session_uncounted _).bind fun _ => (engine_uncounted _).bind fun _ => Moves.bind_ofExcept fun _ _ => ?_
    exact (session_uncounted _).bind fun _ => (engine_uncounted _).bind fun _ => modify_uncounted fun _ => rfl
  | subscribe_v5 subscriptions v5_config =>
    refine done (whenConnected_uncounted (Moves.ite (fun _ => Moves.pure _) fun _ => (session_uncounted _).bind fun _ => ?_))
    exact Moves.bind_ofExcept fun _ _ => (engine_uncounted _).bind fun _ => add_subscriptions_uncounted _ _
  | set_v5_config config => exact done (engine_uncounted _)

/-- Only a poll emits a message. -/
theorem emitted_other {op : Op v} (other : op ≠ .poll) (pid : Pid) (c : Client v) :
    emitted pid (exec op.perform c).1 = [] := by
  have unit : ∀ request : ClientM v.Handler v.Packet v.Error Unit,
      emitted pid (exec (request >>= fun _ => pure Reply.unit) c).1 = [] := by
    intro request
    rw [exec_result_value request fun _ => Reply.unit]
    cases (exec request c).1 <;> rfl
  cases op with
  | poll => exact absurd rfl other
  | next_message => rfl
  | _ => exact unit _

/-- The events of a poll; what the other operations receive is not a message to deliver. -/
def poll_events (c : Client v) (call : Call v) : List (Event v.Packet) :=
  match call.op with
  | .poll => c.events call
  | _ => []

/-- What a run's polls receive, what it emits, what it appends, and what its polls answer. -/
def received_copies (pid : Pid) : Client v → List (Call v) → List Content :=
  gather Client.after fun c call => copies v.Handler pid (poll_events c call)
def emitted_messages (pid : Pid) : Client v → List (Call v) → List Content :=
  gather Client.after fun c call => emitted pid (c.call call).1
def appended_messages (pid : Pid) : Client v → List (Call v) → List Content :=
  gather Client.after fun c call => appended pid c.state (c.after call).state
def sent_answers (pid : Pid) : Client v → List (Call v) → List v.Packet :=
  gather Client.after fun c call => answers v.Handler pid (poll_events c call)

/-- The replies of a poll that receives a message can be sent. -/
def CanReply (pid : Pid) (_ : Client v) (call : Call v) : Prop := call.op = .poll → Answerable v.Handler pid call.world

/-- One call: what arrives is emitted, appended and answered, copy by copy. -/
theorem call_handles {c : Client v} (reachable : c.Reachable) {pid : Pid} {call : Call v} (sendable : CanReply pid c call) :
    emitted pid (c.call call).1 = copies v.Handler pid (poll_events c call) ∧
      appended pid c.state (c.after call).state = copies v.Handler pid (poll_events c call) ∧
        (answers v.Handler pid (poll_events c call)).length = (copies v.Handler pid (poll_events c call)).length := by
  obtain ⟨op, world⟩ := call
  by_cases poll : op = .poll
  · subst poll
    have linked := Reconnect.connected_linked reachable
    obtain ⟨events, log, balanced⟩ := poll_spec pid (c := c.withWorld world) reachable.idle linked (sendable rfl)
    have same : poll_events c ⟨.poll, world⟩ = events := by
      change List.drop c.protocol_engine.log.length (exec (MqttClient.poll >>= fun event => pure (Reply.event event))
        (c.withWorld world)).2.protocol_engine.log = events
      rw [exec_result_state, log]
      exact List.drop_left
    rw [same]
    change emitted pid (exec (MqttClient.poll >>= fun event => pure (Reply.event event)) (c.withWorld world)).1 = _ ∧
      appended pid c.state (exec (MqttClient.poll >>= fun event => pure (Reply.event event)) (c.withWorld world)).2.state = _ ∧ _
    rw [exec_result_value, exec_result_state]
    exact balanced
  · have none : poll_events c ⟨op, world⟩ = [] := by
      cases op with
      | poll => exact absurd rfl poll
      | _ => rfl
    rw [none]
    exact ⟨emitted_other poll pid _, appended_none pid (perform_uncounted poll (c.withWorld world)), rfl⟩

/-- However often a message arrives, every copy is delivered once, and answered once. -/
theorem delivered_per_copy {c : Client v} (reachable : c.Reachable) (pid : Pid) {calls : List (Call v)}
    (sendable : Along Client.after (CanReply pid) c calls) :
    emitted_messages pid c calls = received_copies pid c calls ∧
      appended_messages pid c calls = received_copies pid c calls ∧
        (sent_answers pid c calls).length = (received_copies pid c calls).length := by
  induction calls generalizing c with
  | nil => exact ⟨rfl, rfl, rfl⟩
  | cons call rest ih =>
    obtain ⟨emission, addition, replies⟩ := call_handles reachable sendable.1
    obtain ⟨emissions, additions, answers⟩ := ih (reachable.after call) sendable.2
    refine ⟨congrArg₂ (· ++ ·) emission emissions, congrArg₂ (· ++ ·) addition additions, ?_⟩
    simp only [sent_answers, received_copies, gather_cons, List.length_append] at answers ⊢
    rw [replies, answers]

end

/-! ### A message that comes twice -/

section
local instance : Codec V3.Packet MqttProtoError := Wire.v3Codec
local instance : Codec V5.Packet ErrorV5 := Wire.v5Codec

/-- A new client that receives the packets, one in a poll. -/
def polling (packets : List V3.Packet) : List (Call .v3) :=
  ⟨.connect, .obliging true [.Connack ⟨false, 0⟩]⟩ :: packets.map fun packet => ⟨.poll, .obliging true [packet]⟩

def fresh : Client .v3 := MqttClient.new (.obliging true []) (Version.handler .v3 ()) {}

/-- A message of level 2. -/
def message (dup : Bool) : V3.Packet := .Publish ⟨dup, .Level2 .default, false, "a", [1]⟩

theorem obliging_carries (is_connected : Bool) (packets : List V3.Packet) :
    Carries V3Handler (.obliging is_connected packets : World V3.Packet MqttProtoError) :=
  ⟨fun _ => rfl, fun _ => rfl, fun _ _ _ _ => ⟨_, rfl⟩⟩

theorem polling_sendable (pid : Pid) (packets : List V3.Packet) :
    Along Client.after (CanReply pid) fresh (polling packets) := by
  have carried : ∀ (calls : List (Call .v3)), (∀ call ∈ calls, Carries V3Handler call.world) → ∀ c : Client .v3,
      Along Client.after (CanReply pid) c calls := by
    intro calls
    induction calls with
    | nil => exact fun _ _ => trivial
    | cons call rest ih =>
      exact fun carries c => ⟨fun _ _ _ _ => carries call List.mem_cons_self,
        ih (fun later member => carries later (List.mem_cons_of_mem _ member)) _⟩
  refine carried _ (fun call member => ?_) fresh
  rcases List.mem_cons.mp member with rfl | later
  · exact obliging_carries _ _
  · obtain ⟨packet, -, rfl⟩ := List.mem_map.mp later
    exact obliging_carries _ _

theorem delivered_per_copy_twice : emitted_messages .default fresh (polling [message false, message true]) =
      received_copies .default fresh (polling [message false, message true]) ∧
    appended_messages .default fresh (polling [message false, message true]) =
      received_copies .default fresh (polling [message false, message true]) ∧
    (sent_answers .default fresh (polling [message false, message true])).length =
      (received_copies .default fresh (polling [message false, message true])).length :=
  delivered_per_copy ⟨_, (), _, [], rfl⟩ .default (polling_sendable _ _)

/-- A PUBREL with the identifier has arrived. -/
def released (pid : Pid) (c : Client .v3) : Bool := c.protocol_engine.log.any fun
  | .received packet => packet.shape = .pubrel pid
  | _ => false

/-- A message that comes twice before its PUBREL is delivered twice. -/
theorem copies_delivered : ¬ ∀ (c : Client .v3) (pid : Pid) (calls : List (Call .v3)) (content : Content) (again : Nat),
    (∃ world config, c = MqttClient.new world (Version.handler .v3 ()) config) →
    Along Client.after (CanReply pid) c calls →
    received_copies pid c calls = List.replicate (again + 1) content → released pid (c.run calls) = false →
    emitted_messages pid c calls = [content] ∧ appended_messages pid c calls = [content] ∧
      (sent_answers pid c calls).length = again + 1 := by
  intro exactly_once
  obtain ⟨emission, -⟩ := exactly_once fresh .default (polling [message false, message true]) ⟨"a", false, [1]⟩ 1
    ⟨_, _, rfl⟩ (polling_sendable _ _) (by decide +kernel) (by decide +kernel)
  have twice : (emitted_messages .default fresh (polling [message false, message true])).length = 2 := by decide +kernel
  rw [emission] at twice
  cases twice

end

end Masaka.Reception
