import Masaka.Discharge
import Masaka.Reception
import Masaka.Flags

/-!
A poll in two parts: what it does until it waits for a packet, and what it does with
the packet. Only the second part returns something that a packet has brought.
-/
namespace Masaka.Polling
open Effect MqttProtocolHandler MqttProtocolEngine Sending Flags
open MqttClient (engine engineSession)

section
variable {H P E : Type} [MqttProtocolHandler H P E]

/-- The client as a poll comes to wait for a packet, if it does. -/
def waiting (c : MqttClient H P E) : Option (MqttClient H P E) :=
  if c.protocol_engine.is_connected ∧ ¬ c.protocol_engine.is_connection_timeout (c.protocol_engine.world.now 0) then
    match exec until_receive c with
    | (.ok _, c₁) => some c₁
    | (.error _, _) => none
  else none

theorem waiting_some {c c₁ : MqttClient H P E} (waits : waiting c = some c₁) :
    c.protocol_engine.is_connected = true ∧
      c.protocol_engine.is_connection_timeout (c.protocol_engine.world.now 0) = false ∧
        exec until_receive c = (.ok (), c₁) := by
  unfold waiting at waits
  split at waits
  · rename_i up
    rcases ran : exec until_receive c with ⟨h | _, c'⟩ <;> rw [ran] at waits <;> cases waits
    exact ⟨up.1, Bool.eq_false_iff.mpr up.2, rfl⟩
  · cases waits

/-- What a poll that comes to wait does is what it does with the packet. -/
theorem poll_waits {c c₁ : MqttClient H P E} (waits : waiting c = some c₁) :
    exec MqttClient.poll c = exec MqttClient.receive c₁ := by
  obtain ⟨up, early, ran⟩ := waiting_some waits
  rw [poll_linked up, poll_connected_eq, early, if_neg Bool.false_ne_true, exec_bind, ran]

variable [LawfulHandler H P E]

/-- A poll that does not come to wait returns nothing that a packet has brought. -/
theorem poll_idles {c : MqttClient H P E} (linked : c.state.connection_state = .Connected → c.protocol_engine.connected = true)
    (idles : waiting c = none) {event : Option ClientEvent} (returned : (exec MqttClient.poll c).1 = .ok event) :
    event = none ∨ event = some .Disconnected := by
  suffices quiet : wp MqttClient.poll c fun r _ => r = .ok event → event = none ∨ event = some .Disconnected from
    quiet returned
  refine Reconnect.poll_seq (fun up => ?_)
    (fun _ connected _ => Reception.reconnect_refused .default (linked connected)) (fun _ _ _ _ _ returned => ?_)
    (fun _ _ returned => ?_) (fun _ refused => ?_) (fun _ _ _ returned => ?_) fun _ _ returned => ?_
  · rw [wp, poll_connected_eq]
    split
    · exact fun returned => by cases returned
    · rename_i early
      rw [waiting, if_pos ⟨up, early⟩] at idles
      rw [exec_bind]
      rcases ran : exec until_receive c with ⟨h | _, c'⟩ <;> rw [ran] at idles
      · exact fun returned => by cases returned
      · cases idles
  · exact .inr (Except.ok.inj returned).symm
  · cases returned
  · exact absurd rfl (refused.1 _)
  · exact .inr (Except.ok.inj returned).symm
  · exact .inl (Except.ok.inj returned).symm

/-- Until it waits, a poll takes no identifier, adds no record and removes none. -/
def grant : Grant := ⟨none, [], [], true⟩

/-- Until it waits, a poll does allowed acts. -/
theorem waiting_follows {c c₁ : MqttClient H P E} (waits : waiting c = some c₁) : Follows grant c c₁ := by
  have acting : Operations.Acting grant (until_receive : ClientM H P E Unit) :=
    Operations.clock.bind fun _ => Moves.get.bind fun _ => Moves.bind (Moves.onlyIf fun _ => Operations.ping) fun _ =>
      Operations.handle_retries _
  have follows := acting c
  rwa [(waiting_some waits).2.2] at follows

/-! ### The packet -/

/-- What the client returns for an action; a SUBACK is first confirmed by the session. -/
inductive Brings (s : InMemorySession) : PacketAction → Option ClientEvent → Prop where
  | message (message : ReceivedMessage) : Brings s (.PublishReceived message.topic message.qos message.retain
      message.payload message.packet_id) (some (.MessageReceived message))
  | suback {pid : Pid} {codes : List UInt8} : (SessionState.confirm_subscription pid codes s).1 = .ok () →
      Brings s (.SubscribeAck pid codes) (some (.SubscriptionConfirmed pid))
  | unsuback (pid : Pid) : Brings s (.UnsubscribeAck pid) (some (.UnsubscriptionConfirmed pid))
  | pingresp : Brings s .PingResponse (some .PingResponse)
  | puback (pid : Pid) : Brings s (.PublishAck pid) (some (.MessageAcknowledged pid))
  | pubcomp (pid : Pid) : Brings s (.PublishComplete pid) (some (.MessageAcknowledged pid))
  | silent (action : PacketAction) : Brings s action none

omit [MqttProtocolHandler H P E] [LawfulHandler H P E] in
theorem handle_packet_action_brings (action : PacketAction) (c : MqttClient H P E) {event : Option ClientEvent}
    (returned : (exec (MqttClient.handle_packet_action action) c).1 = .ok event) : Brings c.session_state action event := by
  cases action with
  | SubscribeAck pid codes =>
    rw [MqttClient.handle_packet_action, exec_bind, Operations.exec_trySession] at returned
    cases confirmed : (SessionState.confirm_subscription pid codes c.session_state).1 with
    | error err => rw [confirmed] at returned; cases returned
    | ok _ => rw [confirmed] at returned; cases returned; exact .suback confirmed
  | PublishReceived topic qos retain payload pid => cases returned; exact .message ⟨topic, qos, retain, payload, pid, _⟩
  | UnsubscribeAck pid => cases returned; exact .unsuback pid
  | PingResponse => cases returned; exact .pingresp
  | PublishAck pid => cases returned; exact .puback pid
  | PublishComplete pid => cases returned; exact .pubcomp pid
  | ConnectAck _ _ | PublishRec _ | PublishRelease _ | None => cases returned; exact .silent _

/-- The sessions differ at most in the tables of the handshakes. -/
def SameElse (s s' : InMemorySession) : Prop :=
  s' = { s with pending_publishes := s'.pending_publishes, pending_pubrels := s'.pending_pubrels }

/-- Only the tables of the handshakes may change. -/
abbrev Handshaking (s s' : MqttProtocolEngine H P E × InMemorySession) : Prop := SameElse s.2 s'.2

omit [MqttProtocolHandler H P E] [LawfulHandler H P E] in
theorem SameElse.trans {s s' s'' : InMemorySession} (first : SameElse s s') (second : SameElse s' s'') : SameElse s s'' := by
  rw [SameElse, second, first]

instance : Std.Refl (Handshaking (H := H) (P := P) (E := E)) := ⟨fun _ => rfl⟩
instance : IsTrans (MqttProtocolEngine H P E × InMemorySession) Handshaking := ⟨fun _ _ _ => SameElse.trans⟩

omit [LawfulHandler H P E] in
theorem acknowledge_handshaking (action : PacketAction) : Moves Handshaking (acknowledge (H := H) action) := by
  have sending : ∀ packet, Moves Handshaking (zoom first (send_packet packet) : SessionM H P E Unit) := fun _ _ => rfl
  have replying : ∀ create : H → Except E P, Moves Handshaking (get >>= fun s => ofExcept (into H) (create s.1.handler) >>=
      fun packet => zoom first (send_packet packet) : SessionM H P E Unit) := fun create =>
    Moves.get.bind fun _ => Moves.bind_ofExcept fun packet _ => sending packet
  cases action with
  | PublishAck pid => exact fun _ => rfl
  | PublishComplete pid => exact fun _ => rfl
  | PublishRec pid =>
    refine Moves.bind (fun _ => rfl) fun found => ?_
    cases found with
    | none => exact Moves.pure _
    | some message =>
      refine Moves.get.bind fun s => Moves.bind_ofExcept fun packet _ => (sending packet).bind fun _ => ?_
      exact Moves.bind (fun _ => rfl) fun _ => Moves.ofExcept _ _
  | PublishRelease pid => exact replying fun h => create_pubcomp_packet h pid
  | PublishReceived topic qos retain payload pid =>
    cases pid with
    | none => cases qos <;> exact Moves.pure _
    | some pid =>
      cases qos with
      | Level0 => exact Moves.pure _
      | Level1 => exact replying fun h => create_puback_packet h pid
      | Level2 => exact replying fun h => create_pubrec_packet h pid
  | ConnectAck _ _ | SubscribeAck _ _ | UnsubscribeAck _ | PingResponse | None => exact Moves.pure _

omit [LawfulHandler H P E] in
/-- Receiving leaves the identifier counter, the subscriptions and the active topics alone. -/
theorem receive_packet_handshaking : Moves Handshaking (receive_packet (H := H)) :=
  Moves.bind (fun _ => rfl) fun action => (acknowledge_handshaking action).bind fun _ => Moves.pure _

omit [MqttProtocolHandler H P E] [LawfulHandler H P E] in
theorem handle_packet_action_handshakes (action : PacketAction) : Moves
    (fun c c' : MqttClient H P E => SessionState.handshakes c'.session_state = SessionState.handshakes c.session_state)
    (MqttClient.handle_packet_action action) := by
  intro c
  cases action with
  | SubscribeAck pid codes =>
    rw [MqttClient.handle_packet_action, exec_bind, Operations.exec_trySession]
    have same := SessionState.handshakes_untouched
      (SessionState.confirm_subscription_untouched pid codes c.session_state)
    cases (SessionState.confirm_subscription pid codes c.session_state).1 <;> exact same
  | _ => rfl

omit [LawfulHandler H P E] in
/-- What is returned for the packet that arrived. -/
theorem receive_brings (c : MqttClient H P E) : wp MqttClient.receive c fun r _ => ∀ event, r = .ok event → ∃ action,
    received c.protocol_engine = .ok action ∧ Brings c.session_state action event := by
  have failing : ∀ (err : MqttError) (c' : MqttClient H P E), wp (do MqttClient.set_connection_state .Error; fail err) c'
      fun r _ => ∀ event : Option ClientEvent, r = .ok event → ∃ action,
        received c.protocol_engine = .ok action ∧ Brings c.session_state action event :=
    fun err c' event returned => by cases returned
  rw [MqttClient.receive, wp_bind, wp_attempt, wp_zoom, receive_packet, wp_bind, wp_zoom]
  refine wp_mono (receive_packet_unlogged_spec c.protocol_engine) fun r e waited => ?_
  have outcome : received c.protocol_engine = r := waited.outcome.symm
  rcases r with (err | _) | action
  · exact failing err _
  · exact fun event returned => by cases returned
  simp only [wp_bind]
  -- A SUBACK is not answered, so the session is still the same when it is confirmed.
  have unanswered : wp (acknowledge (H := H) action) (e, c.session_state) fun _ s =>
      ∀ pid codes, action = .SubscribeAck pid codes → s.2 = c.session_state := by
    intro pid codes suback
    rw [suback]
    rfl
  refine wp_mono unanswered fun r s same => ?_
  rcases r with (err | _) | _
  · exact failing err _
  · exact fun event returned => by cases returned
  · intro event returned
    refine ⟨action, outcome, ?_⟩
    have brings := handle_packet_action_brings action _ returned
    cases brings with
    | @suback pid codes confirmed =>
      refine .suback ?_
      rw [← same pid codes rfl]
      exact confirmed
    | message message => exact .message message
    | unsuback pid => exact .unsuback pid
    | pingresp => exact .pingresp
    | puback pid => exact .puback pid
    | pubcomp pid => exact .pubcomp pid
    | silent => exact .silent action

omit [LawfulHandler H P E] in
/-- The log starts with what arrived. -/
theorem receive_log (c : MqttClient H P E) : wp MqttClient.receive c fun _ c' => ∃ more,
    c'.protocol_engine.log = c.protocol_engine.log ++ arrival c.protocol_engine ++ more := by
  rw [MqttClient.receive, wp_bind, wp_attempt, wp_zoom, receive_packet, wp_bind, wp_zoom]
  refine wp_mono (receive_packet_unlogged_spec c.protocol_engine) fun r e waited => ?_
  have silent : ∀ err, wp (do MqttClient.set_connection_state .Error; fail err :
      ClientM H P E (Option ClientEvent)) (engineSession.set (e, c.session_state) c) fun _ c' => ∃ more,
        c'.protocol_engine.log = c.protocol_engine.log ++ arrival c.protocol_engine ++ more :=
    fun err => ⟨[], by rw [List.append_nil]; exact waited.log⟩
  rcases r with (err | _) | action
  · exact silent err
  · exact ⟨[], by rw [List.append_nil]; exact waited.log⟩
  simp only [wp_bind]
  refine wp_mono ((steady_sweep.acknowledge action).wp (e, c.session_state)) fun r s quiet => ?_
  obtain ⟨events, log, -⟩ := quiet.log
  have answered : s.1.log = c.protocol_engine.log ++ arrival c.protocol_engine ++ events := by rw [log, waited.log]
  rcases r with (err | _) | _
  · exact ⟨events, answered⟩
  · exact ⟨events, answered⟩
  · have handling : Moves Steady (MqttClient.handle_packet_action action : ClientM H P E (Option ClientEvent)) :=
      steady_sweep.handle_packet_action action
    simp only [wp_pure]
    refine wp_mono (handling.wp _) fun _ c' steady => ?_
    obtain ⟨more, log', -⟩ := steady.engine.log
    exact ⟨events ++ more, by rw [log', ← List.append_assoc, ← answered]; rfl⟩

/-- The packet that arrives next. -/
def next_packet (e : MqttProtocolEngine H P E) : Option P :=
  match e.world.read 0 with
  | .packet packet => some packet
  | .failed _ _ | .waiting _ => none

omit [MqttProtocolHandler H P E] [LawfulHandler H P E] in
theorem next_packet_iff {e : MqttProtocolEngine H P E} {packet : P} :
    next_packet e = some packet ↔ e.world.read 0 = .packet packet := by
  unfold next_packet
  cases e.world.read 0 <;> simp

omit [LawfulHandler H P E] in
/-- The packet that an action was made from. -/
theorem received_packet {e : MqttProtocolEngine H P E} {action : PacketAction} (arrived : received e = .ok action) :
    ∃ packet, next_packet e = some packet ∧ handle_packet e.handler packet = .ok action := by
  unfold received at arrived
  cases answer : e.world.read 0 with
  | packet packet =>
    refine ⟨packet, next_packet_iff.mpr answer, ?_⟩
    rw [answer] at arrived
    cases handled : handle_packet e.handler packet with
    | error err => simp only [handled] at arrived; cases arrived
    | ok action' => simp only [handled] at arrived; cases arrived; rfl
  | failed _ _ | waiting _ => rw [answer] at arrived; cases arrived

/-- The shape of the packet that arrives next. -/
def arriving (e : MqttProtocolEngine H P E) : Option Shape := (next_packet e).map (LawfulHandler.shape (H := H))

theorem arriving_iff {e : MqttProtocolEngine H P E} {shape : Shape} :
    arriving e = some shape ↔ Discharge.Arrives e shape := by
  simp only [arriving, Option.map_eq_some_iff, next_packet_iff, Discharge.Arrives]

/-- What receiving makes of the tables. -/
theorem receive_acknowledges {c : MqttClient H P E} (idle : c.Idle) : wp MqttClient.receive c fun _ c' =>
    Discharge.Acknowledges c.protocol_engine c.session_state (SessionState.handshakes c'.session_state) := by
  rw [MqttClient.receive, wp_bind, wp_attempt, wp_zoom]
  refine wp_mono (Discharge.receive_packet_handshakes idle c.session_state) fun r s acknowledges => ?_
  rcases r with (err | _) | action
  · exact acknowledges
  · exact acknowledges
  · refine wp_mono ((handle_packet_action_handshakes action).wp (engineSession.set s c)) fun _ c' same => ?_
    rw [same]
    exact acknowledges

end

end Masaka.Polling

namespace Masaka
open Effect

section
variable [Codec V3.Packet MqttProtoError] [Codec V5.Packet ErrorV5] {v : Version}

/-- The client as a call comes to wait for a packet to process, if it does. -/
def Client.waiting (c : Client v) (call : Call v) : Option (Client v) :=
  match call.op with
  | .poll => Polling.waiting (c.withWorld call.world)
  | _ => none

/-- What a call that comes to wait returns and leaves. -/
theorem Client.call_waiting {c c₁ : Client v} {call : Call v} (waits : c.waiting call = some c₁) :
    c.call call = ((exec MqttClient.receive c₁).1.map Reply.event, (exec MqttClient.receive c₁).2) := by
  obtain ⟨op, world⟩ := call
  cases op with
  | poll =>
    have poll := Polling.poll_waits waits
    refine Prod.ext ?_ ?_
    · exact (c.poll_returns _).trans (by rw [poll])
    · exact (c.after_poll _).trans (by rw [poll])
  | _ => cases waits

/-- What a packet has brought is returned by a call that has waited for it. -/
theorem Client.call_event {c : Client v} (reachable : c.Reachable) {call : Call v} {event : ClientEvent}
    (returned : (c.call call).1 = .ok (.event (some event))) (other : event ≠ .Disconnected) :
    ∃ c₁, c.waiting call = some c₁ ∧ (exec MqttClient.receive c₁).1 = .ok (some event) := by
  have unit : ∀ {request : ClientM v.Handler v.Packet v.Error Unit} {c : Client v},
      (exec (request >>= fun _ => pure Reply.unit) c).1 ≠ .ok (.event (some event)) := by
    intro request c same
    obtain ⟨_, -, result⟩ := exec_result_ok (f := fun _ => Reply.unit) same
    cases result
  obtain ⟨op, world⟩ := call
  cases op with
  | poll =>
    cases waits : c.waiting ⟨.poll, world⟩ with
    | some c₁ =>
      rw [call_waiting waits] at returned
      refine ⟨c₁, rfl, ?_⟩
      cases result : (exec MqttClient.receive c₁).1 with
      | error halt => rw [result] at returned; cases returned
      | ok brought => rw [result] at returned; cases returned; rfl
    | none =>
      obtain ⟨brought, poll, same⟩ := exec_result_ok (f := Reply.event) returned
      cases same
      have linked := Reconnect.connected_linked reachable
      rcases Polling.poll_idles (c := c.withWorld world) linked waits poll with none | gone
      · cases none
      · exact absurd (Option.some.inj gone) other
  | next_message => cases returned
  | _ => exact absurd returned unit

theorem Client.waiting_follows {c c₁ : Client v} {call : Call v} (waits : c.waiting call = some c₁) :
    Follows Polling.grant (c.withWorld call.world) c₁ := by
  obtain ⟨op, world⟩ := call
  cases op with
  | poll => exact Polling.waiting_follows waits
  | _ => cases waits

end

end Masaka
