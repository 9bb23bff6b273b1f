import Masaka.Provenance
import Masaka.Retransmission
import Masaka.Retries

/-!
The order of retransmissions. The session keeps what is pending in a table, and not the
order in which it was published; it is sent again in the order in which the table is visited.
-/
namespace Masaka.Order
open Effect Tables MqttProtocolHandler MqttProtocolEngine Sending Retries Retransmission
open ConnectResult (again)
open MqttClient (engine engineSession)
open Provenance (acceptances)

section
variable {H P E : Type} [MqttProtocolHandler H P E] [LawfulHandler H P E]

/-- The identifiers of the PUBLISHes that were written, one after another. -/
def republished (H : Type) {P E : Type} [MqttProtocolHandler H P E] [LawfulHandler H P E] (events : List (Event P)) :
    List Pid := (packets_sent events).filterMap fun packet => (publishes H packet).map Prod.fst

theorem publishes_again {h : H} {entry : Pid × InflightMessage} {packet : P} (made : again h entry = .ok packet) :
    publishes H packet = some (entry.1, true) := by
  obtain ⟨qp, carried, shaped⟩ := LawfulHandler.publish _ _ _ _ _ _ _ _ made
  simp only [publishes, shaped, (qos_pid_level carried).2, Option.map_some]

theorem republishes_again {h : H} (entry : Pid × InflightMessage) (packet : P) (made : again h entry = .ok packet) :
    (publishes H packet).map Prod.fst = some entry.1 := by
  rw [publishes_again made]
  rfl

/-- A pass sends the messages again that it hands over. -/
theorem republished_handed {current_time k n : Nat} {e e' : MqttProtocolEngine H P E} {s s' : InMemorySession}
    {r : Except (Halt MqttError) Unit} {events : List (Event P)} (handed : Handed current_time e s r e' s' k n events) :
    republished H events = ((due current_time e.world.order s).map Prod.fst).take k := by
  rw [republished, handed.told republishes_again fun pid packet created => ?_, List.map_take]
  simp only [publishes, lawful_shape (H := H) LawfulHandler.pubrel created, Option.map_none]

/-- PUBLISHes with the first of the identifiers are written, in their order; with all of them, if
    nothing fails. They are in any order in which all the identifiers are. -/
def Written (pids : List Pid) (c : MqttClient H P E) (r : Except (Halt MqttError) Unit) (c' : MqttClient H P E) : Prop :=
  ∃ events, c'.protocol_engine.log = c.protocol_engine.log ++ events ∧ republished H events <+: pids ∧
    (r = .ok () → republished H events = pids) ∧
    ∀ published : List Pid, pids.Sublist published → (republished H events).Sublist published

theorem Written.of_take {pids : List Pid} {c c' : MqttClient H P E} {r : Except (Halt MqttError) Unit} {k : Nat}
    (events : List (Event P)) (log : c'.protocol_engine.log = c.protocol_engine.log ++ events)
    (written : republished H events = pids.take k) (all : r = .ok () → pids.length ≤ k) : Written pids c r c' := by
  have part : republished H events <+: pids := by
    rw [written]
    exact List.take_prefix k pids
  refine ⟨events, log, part, fun ended => ?_, fun published order => part.sublist.trans order⟩
  rw [written, List.take_of_length_le (all ended)]

theorem resend_written {c : MqttClient H P E} (idle : c.Idle) : wp MqttClient.resend_pending_messages c
    (Written ((SessionState.pending_outgoing_publishes c.protocol_engine.world.order c.session_state).map Prod.fst) c) := by
  rw [MqttClient.resend_pending_messages, wp_bind, wp_get]
  refine wp_mono (resend_series _ idle) fun r c' outcome => ?_
  obtain ⟨-, n, series⟩ := outcome
  obtain ⟨k, events, log, -, sent, -, -, ended, -⟩ := series.part
  have written := filterMap_made republishes_again sent
  rw [List.map_take] at written
  refine .of_take events log written fun returned => ?_
  subst returned
  rw [ended rfl, series.all, List.length_map, List.length_map]

theorem retry_written {c : MqttClient H P E} (idle : c.Idle) (current_time : Nat) :
    wp (zoom engineSession (handle_retries current_time)) c
      (Written ((due current_time c.protocol_engine.world.order c.session_state).map Prod.fst) c) := by
  rw [wp_zoom]
  refine wp_mono (handle_retries_spec current_time idle c.session_state) fun r st handles => ?_
  obtain ⟨k, n, events, handed⟩ := handles.handed
  refine .of_take events handed.log (republished_handed handed) fun returned => ?_
  rw [List.length_map]
  exact handed.ended returned

/-- What is pending is sent again in the order in which the table is visited, after a connect
    and in a pass alike. -/
theorem written_as_visited {c : MqttClient H P E} (idle : c.Idle) (current_time : Nat) :
    wp MqttClient.resend_pending_messages c
      (Written ((SessionState.pending_outgoing_publishes c.protocol_engine.world.order c.session_state).map Prod.fst) c) ∧
    wp (zoom engineSession (handle_retries current_time)) c
      (Written ((due current_time c.protocol_engine.world.order c.session_state).map Prod.fst) c) :=
  ⟨resend_written idle, retry_written idle current_time⟩

end

/-! ### Two messages -/

section
local instance : Codec V3.Packet MqttProtoError := Wire.v3Codec
local instance : Codec V5.Packet ErrorV5 := Wire.v5Codec

/-- A client that published two messages, which are pending. -/
def two_pending : Client .v3 :=
  Client.run (MqttClient.new (.obliging true []) (Version.handler .v3 ()) { clean_session := false })
    [⟨.connect, .obliging true [.Connack ⟨false, 0⟩]⟩, ⟨.publish "a" [1] ⟨.Level1, false⟩, .obliging true []⟩,
      ⟨.publish "b" [2] ⟨.Level2, false⟩, .obliging true []⟩]

theorem two_pending_reachable : two_pending.Reachable := ⟨_, (), _, _, rfl⟩

theorem written_as_visited_two : wp MqttClient.resend_pending_messages two_pending
      (Written [Pid.default.next, .default] two_pending) ∧
    wp (zoom engineSession (handle_retries 6000)) two_pending (Written [Pid.default.next, .default] two_pending) :=
  written_as_visited (c := two_pending) two_pending_reachable.idle 6000

/-- The identifiers are in the order in which the messages were accepted. -/
def InOrder (c : Client .v3) (pids : List Pid) : Prop := pids.Sublist (acceptances c.protocol_engine.log)

/-- The PUBLISHes that an operation writes. -/
def written (c : Client .v3) (m : ClientM V3Handler V3.Packet MqttProtoError Unit) : List Pid :=
  republished V3Handler ((exec m c).2.protocol_engine.log.drop c.protocol_engine.log.length)

/-- The second message is sent before the first one, after a connect and in a pass alike. -/
theorem order_lost : (¬ ∀ c : Client .v3, c.Reachable → InOrder c (written c MqttClient.resend_pending_messages)) ∧
    ¬ ∀ (c : Client .v3) (current_time : Nat), c.Reachable →
      InOrder c (written c (zoom engineSession (handle_retries current_time))) := by
  have first : ¬ InOrder two_pending [Pid.default.next, .default] := by
    rw [InOrder, show acceptances two_pending.protocol_engine.log = [.default, Pid.default.next] by decide +kernel]
    decide
  constructor
  · intro kept
    have order := kept two_pending two_pending_reachable
    rw [show written two_pending MqttClient.resend_pending_messages = [Pid.default.next, .default] by decide +kernel] at order
    exact first order
  · intro kept
    have order := kept two_pending 6000 two_pending_reachable
    rw [show written two_pending (zoom engineSession (handle_retries 6000)) = [Pid.default.next, .default] by
      decide +kernel] at order
    exact first order

end

end Masaka.Order
