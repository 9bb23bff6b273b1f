import Masaka.Polling
import Masaka.Tracking

/-!
The packet that answers a received one, and what receiving makes of the session. A
PUBREC is answered only if its message is still pending.
-/
namespace Masaka.Responses
open Effect Tables Runs MqttProtocolHandler LawfulHandler MqttProtocolEngine Sending Polling
open MqttClient (engineSession)
open SessionState (handshakes)

section
variable {H P E : Type} [MqttProtocolHandler H P E]

/-- The packet that is made to answer an action. -/
def reply (h : H) (s : InMemorySession) : PacketAction → Option (Except E P)
  | .PublishRec pid => if pid ∈ s.pending_publishes then some (create_pubrel_packet h pid) else none
  | .PublishRelease pid => some (create_pubcomp_packet h pid)
  | .PublishReceived _ .Level1 _ _ (some pid) => some (create_puback_packet h pid)
  | .PublishReceived _ .Level2 _ _ (some pid) => some (create_pubrec_packet h pid)
  | _ => none

/-- What the answer to an action comes to, and the engine that it leaves. -/
inductive Replied (e : MqttProtocolEngine H P E) (s : InMemorySession) (action : PacketAction) :
    Except (Halt MqttError) Unit → MqttProtocolEngine H P E → Prop where
  | silent : reply e.handler s action = none → Replied e s action (.ok ()) e
  | sent {packet : P} {r : Except (Halt MqttError) Unit} {e' : MqttProtocolEngine H P E} :
      reply e.handler s action = some (.ok packet) → Sent packet e r e' → Replied e s action r e'

/-- A packet has to be answered with the packet of a shape. -/
def response (s : InMemorySession) : Shape → Option Shape
  | .publish message => match message.qos_pid with
    | .Level0 => none
    | .Level1 pid => some (.puback pid)
    | .Level2 pid => some (.pubrec pid)
  | .pubrec pid => if pid ∈ s.pending_publishes then some (.pubrel pid) else none
  | .pubrel pid => some (.pubcomp pid)
  | _ => none

variable [LawfulHandler H P E]

/-- The reply to an action that a packet asks for has the shape that answers the packet. -/
theorem reply_response (h : H) (s : InMemorySession) {packet : P} {action : PacketAction}
    (handled : handle_packet h packet = .ok action) :
    (reply h s action = none ∧ response s (shape (H := H) packet) = none) ∨
      ∃ answer, reply h s action = some (.ok answer) ∧
        response s (shape (H := H) packet) = some (shape (H := H) answer) := by
  have replied : ∀ {create : H → Pid → Except E P} {shaped : Pid → Shape} {pid : Pid},
      (∀ h pid, ∃ packet, create h pid = .ok packet ∧ shape (H := H) packet = shaped pid) →
      ∃ answer, some (create h pid) = some (.ok answer) ∧ some (shaped pid) = some (shape (H := H) answer) := by
    intro create shaped pid lawful
    obtain ⟨answer, created, same⟩ := lawful h pid
    exact ⟨answer, congrArg some created, congrArg some same.symm⟩
  by_cases some : action = .None
  · subst some
    refine .inl ⟨rfl, ?_⟩
    -- Only a packet that asks for nothing is handled like this.
    cases shaped : shape (H := H) packet with
    | connect | subscribe | unsubscribe | pingreq | disconnect | auth => rfl
    | _ =>
      have asks := LawfulHandler.handle h packet _ (congrArg Shape.action shaped)
      cases handled.symm.trans asks
  · have asked := LawfulHandler.handled h packet action handled some
    cases shaped : shape (H := H) packet with
    | connect | subscribe | unsubscribe | pingreq | disconnect | auth => rw [shaped] at asked; cases asked
    | publish message =>
      rw [shaped] at asked
      cases asked
      obtain ⟨dup, qos_pid, retain, topic, payload⟩ := message
      cases qos_pid with
      | Level0 => exact .inl ⟨rfl, rfl⟩
      | Level1 pid => exact .inr (replied LawfulHandler.puback)
      | Level2 pid => exact .inr (replied LawfulHandler.pubrec)
    | pubrec pid =>
      rw [shaped] at asked
      cases asked
      simp only [reply, response]
      split
      · exact .inr (replied LawfulHandler.pubrel)
      · exact .inl ⟨rfl, rfl⟩
    | pubrel pid => rw [shaped] at asked; cases asked; exact .inr (replied LawfulHandler.pubcomp)
    | connack | puback | pubcomp | suback | unsuback | pingresp =>
      rw [shaped] at asked
      cases asked
      exact .inl ⟨rfl, rfl⟩

/-- A packet that is not handled has no answer. -/
theorem unhandled_response (h : H) (s : InMemorySession) {packet : P} {err : E}
    (unhandled : handle_packet h packet = .error err) : response s (shape (H := H) packet) = none := by
  cases shaped : shape (H := H) packet with
  | connect | subscribe | unsubscribe | pingreq | disconnect | auth => rfl
  | _ => cases unhandled.symm.trans (LawfulHandler.handle h packet _ (congrArg Shape.action shaped))

/-- What answering an action comes to. -/
theorem acknowledge_replied {e : MqttProtocolEngine H P E} (idle : e.write_queue = []) (s : InMemorySession)
    (action : PacketAction) : wp (acknowledge (H := H) action) (e, s) fun r s' => Replied e s action r s'.1 := by
  have replying : ∀ {create : H → Pid → Except E P} {shaped : Pid → Shape} {pid : Pid},
      (∀ h pid, ∃ packet, create h pid = .ok packet ∧ shape (H := H) packet = shaped pid) →
      reply e.handler s action = some (create e.handler pid) →
      wp (get >>= fun s => ofExcept (into H) (create s.1.handler pid) >>= fun packet =>
        zoom first (send_packet packet) : SessionM H P E Unit) (e, s) fun r s' => Replied e s action r s'.1 := by
    intro create shaped pid lawful replies
    obtain ⟨packet, created, -⟩ := lawful e.handler pid
    rw [wp_bind, wp_get]
    simp only [created, ofExcept_ok, pure_bind]
    rw [created] at replies
    rw [wp_zoom]
    exact wp_mono (send_packet_spec (e := e) packet idle) fun r e' sent => .sent replies sent
  cases action with
  | PublishAck pid => exact .silent rfl
  | PublishComplete pid => exact .silent rfl
  | PublishRec pid =>
    simp only [acknowledge, wp_bind, onSession, wp_ofExec, SessionState.complete_outgoing_publish]
    cases stored : s.pending_publishes.lookup pid with
    | none =>
      refine .silent ?_
      rw [reply, if_neg (AList.lookup_eq_none.mp stored)]
    | some message =>
      obtain ⟨pubrel, created, -⟩ := LawfulHandler.pubrel e.handler pid
      have replies : reply e.handler s (.PublishRec pid) = some (.ok pubrel) := by
        rw [reply, if_pos (mem_iff_lookup.mpr ⟨message, stored⟩), created]
      simp only [wp_bind, wp_get, created, ofExcept_ok, wp_pure, wp_zoom]
      refine wp_mono (send_packet_spec (e := e) pubrel idle) fun r e' sent => ?_
      cases r with
      | error h => exact .sent replies sent
      | ok _ => exact .sent replies sent
  | PublishRelease pid => exact replying LawfulHandler.pubcomp rfl
  | PublishReceived topic qos retain payload pid =>
    cases pid with
    | none => cases qos <;> exact .silent rfl
    | some pid =>
      cases qos with
      | Level0 => exact .silent rfl
      | Level1 => exact replying LawfulHandler.puback rfl
      | Level2 => exact replying LawfulHandler.pubrec rfl
  | ConnectAck _ _ | SubscribeAck _ _ | UnsubscribeAck _ | PingResponse | None => exact .silent rfl

/-- The engine that waiting for the next packet leaves. -/
abbrev waited (e : MqttProtocolEngine H P E) : MqttProtocolEngine H P E := (exec receive_packet_unlogged e).2

/-- What receiving a packet comes to, and what it leaves. -/
inductive Receives (e : MqttProtocolEngine H P E) (s : InMemorySession) :
    Except (Halt MqttError) PacketAction → MqttProtocolEngine H P E × InMemorySession → Prop where
  | unread {h : Halt MqttError} : received e = .error h → Receives e s (.error h) (waited e, s)
  | read {action : PacketAction} {r : Except (Halt MqttError) Unit} {s' : MqttProtocolEngine H P E × InMemorySession} :
      received e = .ok action → Replied (waited e) s action r s'.1 → Receives e s (r.map fun _ => action) s'

omit [LawfulHandler H P E] in
theorem Receives.idle {e : MqttProtocolEngine H P E} {s : InMemorySession} {r : Except (Halt MqttError) PacketAction}
    {s' : MqttProtocolEngine H P E × InMemorySession} (receives : Receives e s r s') (idle : e.write_queue = []) :
    s'.1.write_queue = [] := by
  have waits : Waited e _ (waited e) := receive_packet_unlogged_spec e
  cases receives with
  | unread _ => exact waits.queue.trans idle
  | read _ replied =>
    obtain ⟨e', t⟩ := s'
    cases replied with
    | silent _ => exact waits.queue.trans idle
    | sent _ sent => exact sent.idle (waits.queue.trans idle)

theorem receive_packet_receives {e : MqttProtocolEngine H P E} (idle : e.write_queue = []) (s : InMemorySession) :
    wp (receive_packet (H := H)) (e, s) (Receives e s) := by
  have waits : wp receive_packet_unlogged e fun r e' => Waited e r e' ∧ e' = waited e :=
    ⟨receive_packet_unlogged_spec e, rfl⟩
  rw [receive_packet, wp_bind, wp_zoom]
  refine wp_mono waits fun r e' waits => ?_
  obtain ⟨waits, rfl⟩ := waits
  have outcome : received e = r := waits.outcome.symm
  cases r with
  | error h => exact .unread outcome
  | ok action =>
    refine wp_result (wp_mono (acknowledge_replied (waits.queue.trans idle) s action) fun r s' replied => ?_)
    exact .read outcome replied

/-- The client after an error; a call that is dropped leaves it as it is. -/
def stopped (c : MqttClient H P E) (h : Halt MqttError) :
    Except (Halt MqttError) (Option ClientEvent) × MqttClient H P E :=
  (.error h, match h with
    | .err _ => { c with state := c.state.set_connection_state .Error }
    | .cut => c)

omit [LawfulHandler H P E] in
/-- The last part of a poll is what is done with the action, unless receiving fails. -/
theorem exec_receive (c : MqttClient H P E) : exec MqttClient.receive c =
    match exec receive_packet (c.protocol_engine, c.session_state) with
    | (.ok action, s) => exec (MqttClient.handle_packet_action action) (engineSession.set s c)
    | (.error h, s) => stopped (engineSession.set s c) h := by
  rw [MqttClient.receive, exec_bind]
  simp only [attempt, exec_ofExec, zoom, MqttClient.engineSession_get]
  rcases exec receive_packet (c.protocol_engine, c.session_state) with ⟨(err | _) | action, s⟩ <;> rfl

omit [MqttProtocolHandler H P E] [LawfulHandler H P E] in
/-- What is done with the action sends nothing. -/
theorem handle_packet_action_silent (action : PacketAction) (c : MqttClient H P E) : ∃ more,
    (exec (MqttClient.handle_packet_action action) c).2.protocol_engine.log = c.protocol_engine.log ++ more ∧
      ∀ frame, .sent frame ∉ more := by
  cases action with
  | PublishReceived topic qos retain payload pid => exact ⟨[.clock (c.protocol_engine.world.now 0)], rfl, by simp⟩
  | SubscribeAck pid codes =>
    refine ⟨[], ?_, by simp⟩
    rw [MqttClient.handle_packet_action, exec_bind, Operations.exec_trySession]
    cases (SessionState.confirm_subscription pid codes c.session_state).1 <;> exact (List.append_nil _).symm
  | _ => exact ⟨[], (List.append_nil _).symm, by simp⟩

/-- An action without a reply comes to what the client does with it. -/
theorem receive_silent {c : MqttClient H P E} (idle : c.Idle) {action : PacketAction}
    (arrived : received c.protocol_engine = .ok action) (silent : reply c.protocol_engine.handler c.session_state action = none) :
    ∃ s, exec MqttClient.receive c = exec (MqttClient.handle_packet_action action) (engineSession.set s c) := by
  have waits : Waited c.protocol_engine _ (waited c.protocol_engine) := receive_packet_unlogged_spec _
  have receives := receive_packet_receives idle c.session_state
  rw [wp] at receives
  rw [exec_receive]
  generalize exec receive_packet (c.protocol_engine, c.session_state) = ran at receives
  obtain ⟨r, e', t⟩ := ran
  cases receives with
  | unread failed => cases failed.symm.trans arrived
  | read done replied =>
    cases done.symm.trans arrived
    cases replied with
    | silent _ => exact ⟨_, rfl⟩
    | sent replies _ => rw [waits.handler, silent] at replies; cases replies

omit [LawfulHandler H P E] in
/-- A message that is returned has been put into the receive queue. -/
theorem receive_message {c : MqttClient H P E} {message : ReceivedMessage}
    (returned : (exec MqttClient.receive c).1 = .ok (some (.MessageReceived message))) :
    (exec MqttClient.receive c).2.state = c.state.add_received_message message := by
  rw [exec_receive] at returned ⊢
  generalize exec receive_packet (c.protocol_engine, c.session_state) = ran at returned
  obtain ⟨(err | _) | action, s⟩ := ran
  · cases returned
  · cases returned
  · cases action with
    | PublishReceived topic qos retain payload pid => cases returned; rfl
    | SubscribeAck pid codes =>
      dsimp only at returned
      rw [MqttClient.handle_packet_action, exec_bind, Operations.exec_trySession] at returned
      cases confirmed : (SessionState.confirm_subscription pid codes (engineSession.set s c).session_state).1 with
      | error err => rw [confirmed] at returned; cases returned
      | ok _ => rw [confirmed] at returned; cases returned
    | _ => cases returned

/-- What processing the next packet sends is the reply to it, if it can be encoded and the
    transport takes all of it. -/
theorem receive_sent_iff {c : MqttClient H P E} (idle : c.Idle) : wp MqttClient.receive c fun _ c' => ∃ events,
    c'.protocol_engine.log = c.protocol_engine.log ++ events ∧ ∀ frame, .sent frame ∈ events ↔ ∃ action,
      received c.protocol_engine = .ok action ∧
      reply c.protocol_engine.handler c.session_state action = some (.ok frame.packet) ∧
      encode_packet c.protocol_engine.handler frame.packet = .ok frame.bytes ∧
      Takes c.protocol_engine.world.write frame.bytes.length := by
  have waits : Waited c.protocol_engine _ (waited c.protocol_engine) := receive_packet_unlogged_spec _
  have unsent : ∀ frame, .sent frame ∉ arrival c.protocol_engine := by
    intro frame
    unfold arrival
    split <;> simp
  have receives := receive_packet_receives idle c.session_state
  rw [wp] at receives ⊢
  rw [exec_receive]
  generalize exec receive_packet (c.protocol_engine, c.session_state) = ran at receives
  obtain ⟨r, e', t⟩ := ran
  -- The events up to the client's own part, which sends nothing.
  suffices answered : ∃ events, e'.log = c.protocol_engine.log ++ events ∧ ∀ frame, .sent frame ∈ events ↔ ∃ action,
      received c.protocol_engine = .ok action ∧
      reply c.protocol_engine.handler c.session_state action = some (.ok frame.packet) ∧
      encode_packet c.protocol_engine.handler frame.packet = .ok frame.bytes ∧
      Takes c.protocol_engine.world.write frame.bytes.length by
    obtain ⟨events, log, sent⟩ := answered
    rcases r with (err | _) | action
    · exact ⟨events, log, sent⟩
    · exact ⟨events, log, sent⟩
    · obtain ⟨more, log', silent⟩ := handle_packet_action_silent action (engineSession.set (e', t) c)
      refine ⟨events ++ more, log'.trans (by rw [← List.append_assoc, ← log]; rfl), fun frame => ?_⟩
      rw [List.mem_append, ← sent frame]
      exact ⟨fun member => member.resolve_right (silent frame), .inl⟩
  cases receives with
  | unread failed =>
    refine ⟨arrival c.protocol_engine, waits.log, fun frame => ⟨fun member => absurd member (unsent frame), ?_⟩⟩
    rintro ⟨action, done, -⟩
    cases failed.symm.trans done
  | @read action r s' done replied =>
    cases replied with
    | silent silent =>
      refine ⟨arrival c.protocol_engine, waits.log, fun frame => ⟨fun member => absurd member (unsent frame), ?_⟩⟩
      rintro ⟨action', done', replies, -⟩
      cases done.symm.trans done'
      rw [waits.handler, replies] at silent
      cases silent
    | @sent packet r e' replies sent =>
      obtain ⟨events, log, out⟩ := sent.sent_iff
      refine ⟨arrival c.protocol_engine ++ events, by rw [log, waits.log, List.append_assoc], fun frame => ?_⟩
      rw [List.mem_append, out frame, waits.handler, waits.write]
      rw [waits.handler] at replies
      constructor
      · intro member
        obtain ⟨rfl, encodes, takes⟩ := member.resolve_left (unsent frame)
        exact ⟨action, done, replies, encodes, takes⟩
      · rintro ⟨action', done', replies', encodes, takes⟩
        cases done.symm.trans done'
        cases replies.symm.trans replies'
        exact .inr ⟨rfl, encodes, takes⟩

/-! ### A sequence of packets -/

/-- A packet that arrives over a transport that works. -/
structure Delivery (P E : Type) where
  packet : P
  world : World P E
  arrives : world.read 0 = .packet packet
  taking : Taking world.write
  flushed : world.flush 0 = some (.ok ())

/-- The engine and the session after the packet was processed. -/
def process (s : MqttProtocolEngine H P E × InMemorySession) (d : Delivery P E) :
    MqttProtocolEngine H P E × InMemorySession := (exec receive_packet ({ s.1 with world := d.world }, s.2)).2

/-- The packets that a received one may be answered with. -/
def Answers : Shape → Prop
  | .puback _ | .pubrec _ | .pubrel _ | .pubcomp _ => True
  | _ => False

omit [MqttProtocolHandler H P E] [LawfulHandler H P E] in
theorem response_answers {s : InMemorySession} {arriving answer : Shape} (responds : response s arriving = some answer) :
    Answers answer := by
  cases arriving with
  | publish message =>
    obtain ⟨dup, qos_pid, retain, topic, payload⟩ := message
    cases qos_pid <;> cases responds <;> trivial
  | pubrec pid =>
    rw [response] at responds
    split at responds <;> cases responds
    trivial
  | pubrel pid => cases responds; trivial
  | _ => cases responds

/-- The identifier of a received packet. -/
def concerns : Shape → Option Pid
  | .publish message => message.qos_pid.pid
  | .puback pid | .pubrec pid | .pubrel pid | .pubcomp pid | .suback pid _ | .unsuback pid => some pid
  | _ => none

/-- Only what the session holds under the identifier of the received packet may differ. -/
structure Framed (received : Shape) (s s' : InMemorySession) : Prop where
  publishes : ∀ pid, concerns received ≠ some pid → s'.pending_publishes.lookup pid = s.pending_publishes.lookup pid
  pubrels : ∀ pid, concerns received ≠ some pid → s'.pending_pubrels.lookup pid = s.pending_pubrels.lookup pid
  next_pid : s'.next_pid = s.next_pid
  subscriptions : s'.subscriptions = s.subscriptions
  active_topics : s'.active_topics = s.active_topics

/-- An acknowledgment touches nothing but what is under its identifier. -/
theorem acknowledges_frame {e : MqttProtocolEngine H P E} {s : InMemorySession}
    {t : HashMap Pid InflightMessage × HashSet Pid} (acknowledges : Discharge.Acknowledges e s t) {arriving : Shape}
    (arrives : Discharge.Arrives e arriving) {pid : Pid} (other : concerns arriving ≠ some pid) :
    t.1.lookup pid = s.pending_publishes.lookup pid ∧ t.2.lookup pid = s.pending_pubrels.lookup pid := by
  have differs : ∀ {p : Pid} {shape : Shape}, Discharge.Arrives e shape → concerns shape = some p → pid ≠ p := by
    intro p shape arrives' concerned same
    rw [arrives.unique arrives', concerned, same] at other
    exact other rfl
  cases acknowledges with
  | puback outcome => exact ⟨AList.lookup_erase_ne (differs (Discharge.arrives_puback.mpr outcome) rfl), rfl⟩
  | pubcomp outcome =>
    have apart := differs (Discharge.arrives_pubcomp.mpr outcome) rfl
    exact ⟨AList.lookup_erase_ne apart, AList.lookup_erase_ne apart⟩
  | pubrec outcome _ _ _ =>
    have apart := differs (Discharge.arrives_pubrec.mpr outcome) rfl
    exact ⟨AList.lookup_erase_ne apart, AList.lookup_insert_ne apart⟩
  | unsent outcome _ _ _ =>
    exact ⟨AList.lookup_erase_ne (differs (Discharge.arrives_pubrec.mpr outcome) rfl), rfl⟩
  | unknown _ _ | other _ _ _ => exact ⟨rfl, rfl⟩

theorem process_framed {s : MqttProtocolEngine H P E × InMemorySession} (idle : s.1.write_queue = []) (d : Delivery P E) :
    Framed (shape (H := H) d.packet) s.2 (process s d).2 := by
  have arrives : Discharge.Arrives { s.1 with world := d.world } (shape (H := H) d.packet) := ⟨d.packet, d.arrives, rfl⟩
  have acknowledges := Discharge.receive_packet_handshakes (e := { s.1 with world := d.world }) idle s.2
  have same : SameElse s.2 (process s d).2 := receive_packet_handshaking ({ s.1 with world := d.world }, s.2)
  have framed : ∀ pid, concerns (shape (H := H) d.packet) ≠ some pid → _ := fun pid other =>
    acknowledges_frame acknowledges arrives other
  exact ⟨fun pid other => (framed pid other).1, fun pid other => (framed pid other).2, congrArg (·.next_pid) same,
    congrArg (·.subscriptions) same, congrArg (·.active_topics) same⟩

theorem process_idle {s : MqttProtocolEngine H P E × InMemorySession} (idle : s.1.write_queue = []) (d : Delivery P E) :
    (process s d).1.write_queue = [] :=
  (receive_packet_receives (e := { s.1 with world := d.world }) idle s.2).idle idle

variable (encodes : ∀ (h : H) (packet : P), Answers (shape (H := H) packet) → ∃ bytes, encode_packet h packet = .ok bytes)
include encodes

/-- A packet is answered with the packet that has to answer it, and with nothing else. -/
theorem process_wrote {s : MqttProtocolEngine H P E × InMemorySession} (idle : s.1.write_queue = []) (d : Delivery P E) :
    ∃ written events, (process s d).1.log = s.1.log ++ events ∧
      Wrote written events ∧ written.map (shape (H := H)) = (response s.2 (shape (H := H) d.packet)).toList := by
  let e : MqttProtocolEngine H P E := { s.1 with world := d.world }
  have waits : Waited e _ (waited e) := receive_packet_unlogged_spec e
  have arrived : arrival e = [.received d.packet, .clock (e.world.now 0)] := by
    rw [arrival, show e.world.read 0 = _ from d.arrives]
  have outcome : received e = (handle_packet e.handler d.packet).mapError fun err => .err (into H err) := by
    rw [received, show e.world.read 0 = _ from d.arrives]
  have quiet : Wrote [] (arrival e) := by rw [arrived]; exact ⟨rfl, rfl⟩
  have receives := receive_packet_receives (e := e) idle s.2
  unfold process
  rw [wp] at receives
  generalize (exec (receive_packet (H := H)) (e, s.2)).1 = r at receives
  generalize (exec (receive_packet (H := H)) (e, s.2)).2 = s' at receives
  cases receives with
  | unread failed =>
    refine ⟨[], arrival e, waits.log, quiet, ?_⟩
    cases handled : handle_packet e.handler d.packet with
    | ok action => rw [outcome, handled] at failed; cases failed
    | error err => rw [unhandled_response e.handler s.2 handled]; rfl
  | @read action r s' done replied =>
    have handled : handle_packet e.handler d.packet = .ok action := by
      cases handled : handle_packet e.handler d.packet with
      | ok action' => rw [outcome, handled] at done; cases done; rfl
      | error err => rw [outcome, handled] at done; cases done
    have handled' : handle_packet (waited e).handler d.packet = .ok action := by
      rw [waits.handler]
      exact handled
    have answers := reply_response (waited e).handler s.2 handled'
    obtain ⟨e', t⟩ := s'
    cases replied with
    | silent silent =>
      obtain ⟨-, none⟩ := answers.resolve_right fun replies => by
        obtain ⟨answer, replies, -⟩ := replies
        cases silent.symm.trans replies
      rw [none]
      exact ⟨[], arrival e, waits.log, quiet, rfl⟩
    | @sent packet r e' replies sent =>
      obtain ⟨answer, replies', responds⟩ := answers.resolve_left fun silent => by cases replies.symm.trans silent.1
      cases replies.symm.trans replies'
      obtain ⟨bytes, encoded⟩ := encodes (waited e).handler packet (response_answers responds)
      have taking : Taking (waited e).world.write := by rw [waits.write]; exact d.taking
      have flushed : (waited e).world.flush 0 = some (.ok ()) := by rw [waits.flush]; exact d.flushed
      obtain ⟨rfl, events, rest, log, transmission⟩ := sent.succeeds encoded taking flushed
      refine ⟨[packet], arrival e ++ events, ?_, ?_, ?_⟩
      · rw [log, waits.log, List.append_assoc]
      · exact quiet.append (transmission_wrote transmission)
      · rw [responds]; rfl

/-- What is written for a sequence of packets are their answers, in order. -/
theorem run_wrote {s : MqttProtocolEngine H P E × InMemorySession} (idle : s.1.write_queue = [])
    (deliveries : List (Delivery P E)) : ∃ written events, (run process s deliveries).1.log = s.1.log ++ events ∧
      Wrote written events ∧ written.map (shape (H := H)) =
        gather process (fun s d => (response s.2 (shape (H := H) d.packet)).toList) s deliveries := by
  induction deliveries generalizing s with
  | nil => exact ⟨[], [], (List.append_nil _).symm, .nil, rfl⟩
  | cons d rest ih =>
    obtain ⟨written, events, log, wrote, shapes⟩ := process_wrote encodes idle d
    obtain ⟨more, events', log', wrote', shapes'⟩ := ih (process_idle idle d)
    refine ⟨written ++ more, events ++ events', ?_, wrote.append wrote', ?_⟩
    · rw [run_cons, log', log, List.append_assoc]
    · rw [List.map_append, shapes, shapes', gather_cons]

omit encodes in
theorem along_framed {s : MqttProtocolEngine H P E × InMemorySession} (idle : s.1.write_queue = [])
    (deliveries : List (Delivery P E)) :
    Along process (fun s d => Framed (shape (H := H) d.packet) s.2 (process s d).2) s deliveries := by
  exact along_imp (I := fun s : MqttProtocolEngine H P E × InMemorySession => s.1.write_queue = [])
    (fun s d idle _ => process_idle idle d) (fun s d idle _ => process_framed idle d) idle
    (along_true process s deliveries)

end

/-! ### Both versions -/

section
variable [Codec V3.Packet MqttProtoError] [Codec V5.Packet ErrorV5] {v : Version}

/-- The acknowledgments of the version can be encoded. -/
def Encodes (v : Version) : Prop := ∀ (h : v.Handler) (packet : v.Packet), Answers (shape (H := v.Handler) packet) →
  ∃ bytes, encode_packet h packet = .ok bytes

/-- Every packet is answered with what has to answer it, in the order of arrival, and
    touches nothing of the session but what is under its identifier. -/
theorem responses_match (encodes : Encodes v) {e : MqttProtocolEngine v.Handler v.Packet v.Error}
    (idle : e.write_queue = []) (s : InMemorySession) (deliveries : List (Delivery v.Packet v.Error)) :
    (∃ written events, (run process (e, s) deliveries).1.log = e.log ++ events ∧ Wrote written events ∧
      written.map (shape (H := v.Handler)) =
        gather process (fun s d => (response s.2 (shape (H := v.Handler) d.packet)).toList) (e, s) deliveries) ∧
    Along process (fun s d => Framed (shape (H := v.Handler) d.packet) s.2 (process s d).2) (e, s) deliveries :=
  ⟨run_wrote (s := (e, s)) encodes idle deliveries, along_framed (s := (e, s)) idle deliveries⟩

/-- A PUBREC is answered exactly if a message is pending under its identifier; if none is,
    nothing is written and the session stays. -/
theorem pubrec_answered_iff (encodes : Encodes v) {c : Client v} (reachable : c.Reachable)
    (d : Delivery v.Packet v.Error) {pid : Pid} (pubrec : shape (H := v.Handler) d.packet = .pubrec pid) :
    ∃ written events, (process (c.protocol_engine, c.session_state) d).1.log = c.protocol_engine.log ++ events ∧
      Wrote written events ∧
      (pid ∈ c.session_state.pending_publishes → written.map (shape (H := v.Handler)) = [.pubrel pid] ∧
        handshakes (process (c.protocol_engine, c.session_state) d).2 =
          (c.session_state.pending_publishes.erase pid, c.session_state.pending_pubrels.insert pid ())) ∧
      (pid ∉ c.session_state.pending_publishes → written = [] ∧
        (process (c.protocol_engine, c.session_state) d).2 = c.session_state) := by
  let e : MqttProtocolEngine v.Handler v.Packet v.Error := { c.protocol_engine with world := d.world }
  obtain ⟨written, events, log, wrote, shapes⟩ :=
    process_wrote (s := (c.protocol_engine, c.session_state)) encodes reachable.idle d
  have arrived : received e = .ok (.PublishRec pid) := Discharge.arrives_pubrec.mp ⟨d.packet, d.arrives, pubrec⟩
  obtain ⟨pubrel, created, shaped⟩ := LawfulHandler.pubrel e.handler pid
  have acknowledges := Discharge.receive_packet_handshakes (e := e) reachable.idle c.session_state
  refine ⟨written, events, log, wrote, fun pending => ?_, fun absent => ?_⟩
  · refine ⟨by rw [shapes, pubrec, response, if_pos pending]; rfl, ?_⟩
    obtain ⟨bytes, encoded⟩ := encodes e.handler pubrel (by rw [shaped]; trivial)
    have sends : Sends e pubrel := ⟨bytes, encoded, d.taking.takes bytes.length, d.flushed⟩
    rcases acknowledges.of_pubrec arrived created with ⟨-, -, tables⟩ | ⟨-, unsent, -⟩ | ⟨absent, -⟩
    · exact tables
    · exact absurd sends unsent
    · exact absurd pending absent
  · refine ⟨by simpa [pubrec, response, absent] using shapes, ?_⟩
    have same : SameElse c.session_state (process (c.protocol_engine, c.session_state) d).2 :=
      receive_packet_handshaking (e, c.session_state)
    rcases acknowledges.of_pubrec arrived created with ⟨pending, -⟩ | ⟨pending, -⟩ | ⟨-, tables⟩
    · exact absurd pending absent
    · exact absurd pending absent
    · rw [same]
      exact congrArg (fun t : HashMap Pid InflightMessage × HashSet Pid =>
        { c.session_state with pending_publishes := t.1, pending_pubrels := t.2 }) tables

end

section
local instance : Codec V3.Packet MqttProtoError := Wire.v3Codec
local instance : Codec V5.Packet ErrorV5 := Wire.v5Codec

def delivery (packet : V3.Packet) : Delivery V3.Packet MqttProtoError where
  packet := packet
  world := .obliging true [packet]
  arrives := rfl
  taking _ := rfl
  flushed := rfl

theorem v3_encodes : Encodes .v3 := fun _ packet _ => ⟨Wire.v3 packet, rfl⟩

/-- A client that has sent a message of level 2. -/
def publishing : Client .v3 := Client.run (MqttClient.new (.obliging true []) {} {})
  [⟨.connect, .obliging true [.Connack ⟨false, 0⟩]⟩, ⟨.publish "a" [1] ⟨.Level2, false⟩, .obliging true []⟩]

theorem publishing_reachable : publishing.Reachable := ⟨_, (), _, _, rfl⟩

def engine : MqttProtocolEngine V3Handler V3.Packet MqttProtoError := publishing.protocol_engine

theorem responses_match_publishing :
    (∃ written events, (run process (engine, publishing.session_state)
        [delivery (.Publish ⟨false, .Level1 .default, false, "b", []⟩), delivery (.Pubrec .default)]).1.log =
          engine.log ++ events ∧ Wrote written events ∧ written.map (shape (H := V3Handler)) =
        gather process (fun s d => (response s.2 (shape (H := V3Handler) d.packet)).toList) (engine, publishing.session_state)
          [delivery (.Publish ⟨false, .Level1 .default, false, "b", []⟩), delivery (.Pubrec .default)]) ∧
    Along process (fun s d => Framed (shape (H := V3Handler) d.packet) s.2 (process s d).2) (engine, publishing.session_state)
      [delivery (.Publish ⟨false, .Level1 .default, false, "b", []⟩), delivery (.Pubrec .default)] :=
  responses_match (v := .v3) v3_encodes publishing_reachable.idle publishing.session_state _

theorem pubrec_answered_publishing :
    ∃ written events, (process (engine, publishing.session_state) (delivery (.Pubrec .default))).1.log = engine.log ++ events ∧
      Wrote written events ∧
      (Pid.default ∈ publishing.session_state.pending_publishes →
        written.map (shape (H := V3Handler)) = [.pubrel .default] ∧
        handshakes (process (engine, publishing.session_state) (delivery (.Pubrec .default))).2 =
          (publishing.session_state.pending_publishes.erase .default,
            publishing.session_state.pending_pubrels.insert .default ())) ∧
      (Pid.default ∉ publishing.session_state.pending_publishes → written = [] ∧
        (process (engine, publishing.session_state) (delivery (.Pubrec .default))).2 = publishing.session_state) :=
  pubrec_answered_iff (v := .v3) v3_encodes publishing_reachable (delivery (.Pubrec .default)) rfl

/-- A PUBREC that comes again is not answered. -/
theorem duplicate_unanswered : ¬ ∀ (c : Client .v3) (d : Delivery V3.Packet MqttProtoError) (pid : Pid), c.Reachable →
    ¬ Discharge.Awaits c.session_state pid .Level1 → d.packet = .Pubrec pid → ∃ events,
      (process (c.protocol_engine, c.session_state) d).1.log = c.protocol_engine.log ++ events ∧
        V3.Packet.Pubrel pid ∈ packets_sent events := by
  intro answered
  let released : Client .v3 := publishing.after ⟨.poll, .obliging true [.Pubrec .default]⟩
  have unawaited : ¬ Discharge.Awaits released.session_state .default .Level1 := by
    rintro ⟨message, stored, -⟩
    have gone : Pid.default ∉ released.session_state.pending_publishes := by decide +kernel
    exact gone (mem_iff_lookup.mpr ⟨message, stored⟩)
  obtain ⟨events, log, member⟩ := answered released (delivery (.Pubrec .default)) .default
    (publishing_reachable.after _) unawaited rfl
  have silent : packets_sent ((process (released.protocol_engine, released.session_state)
      (delivery (.Pubrec .default))).1.log.drop released.protocol_engine.log.length) = [] := by decide +kernel
  rw [log, List.drop_left] at silent
  rw [silent] at member
  cases member

end

end Masaka.Responses
