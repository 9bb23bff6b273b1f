import Masaka.Publishing
import Masaka.Wire

/-!
Messages in flight. A message of level 2 counts until its PUBCOMP; the limit is
checked against the messages that wait for a PUBACK or a PUBREC only.
-/
namespace Masaka.Inflight
open Effect Tables Runs MqttProtocolHandler LawfulHandler Publishing

/-- The messages that are not yet fully acknowledged. -/
def in_flight (s : InMemorySession) : Nat := len s.pending_publishes + len s.pending_pubrels

theorem in_flight_handshakes {s s' : InMemorySession} (same : SessionState.handshakes s' = SessionState.handshakes s) :
    in_flight s' = in_flight s := by
  rw [in_flight, in_flight, show s'.pending_publishes = s.pending_publishes from congrArg Prod.fst same,
    show s'.pending_pubrels = s.pending_pubrels from congrArg Prod.snd same]

/-- An act that takes no identifier takes on no message. -/
theorem in_flight_act {H P E : Type} [MqttProtocolHandler H P E] [LawfulHandler H P E] {config : ClientConfig}
    {grant : Grant} {view : View P} {act : Act P} (allowed : act.Allowed H config grant view)
    (none : grant.identifier = none) : in_flight (act.session view.session) ≤ in_flight view.session := by
  have untouched : ∀ s, SessionState.untouched s = SessionState.untouched view.session →
      in_flight s ≤ in_flight view.session := fun s same =>
    (in_flight_handshakes (SessionState.handshakes_untouched same)).le
  cases act with
  | accept pid message => cases none.symm.trans allowed.1
  | complete pid => exact Nat.add_le_add_right (len_erase_le _ pid) _
  | finish pid => exact Nat.add_le_add_left (len_erase_le _ pid) _
  | retry pid message =>
    obtain ⟨old, stored, -⟩ := allowed
    have same := len_insert (mem_iff_lookup.mpr ⟨old, stored⟩) message
    exact Nat.add_le_add_right same.le _
  | release pid frame events rest =>
    -- The message leaves one table and its identifier enters the other.
    have out := len_erase allowed.2.1
    have into := len_insert_le view.session.pending_pubrels pid ()
    change len (view.session.pending_publishes.erase pid) + len (view.session.pending_pubrels.insert pid ()) ≤ _
    rw [in_flight]
    omega
  | add pid topic_filter qos => exact untouched _ (SessionState.add_subscription_untouched ..)
  | confirm pid codes => exact untouched _ (SessionState.confirm_subscription_untouched ..)
  | remove order topic_filter => exact untouched _ (SessionState.remove_subscription_untouched ..)
  | clear => exact Nat.zero_le _
  | transmit | note | state | link | hand_out => exact Nat.le_refl _

section
variable [Codec V3.Packet MqttProtoError] [Codec V5.Packet ErrorV5] {v : Version}

/-- The operation is none of those that take an identifier. -/
def idle_op : Op v → Bool
  | .connect | .reconnect | .disconnect | .ping | .poll | .next_message | .set_v5_config _ => true
  | _ => false

/-- What an operation may do that takes no identifier. -/
def nothing : Grant := ⟨none, [], [], true⟩

theorem idle_op_follows {op : Op v} (idle : idle_op op = true) (c : Client v) : Follows nothing c (exec op.perform c).2 := by
  cases op with
  | connect => exact Operations.connect.bind (fun _ => Moves.pure _) c
  | reconnect => exact Operations.reconnect.bind (fun _ => Moves.pure _) c
  | disconnect => exact Operations.disconnect.bind (fun _ => Moves.pure _) c
  | ping => exact Operations.ping.bind (fun _ => Moves.pure _) c
  | poll => exact Operations.poll.bind (fun _ => Moves.pure _) c
  | next_message => exact Follows.aside rfl rfl rfl rfl
  | set_v5_config config => exact Moves.bind (Operations.handler_change _) (fun _ => Moves.pure _) c
  | _ => cases idle

/-- The other requests that store no message stay in every relation that their steps stay in. -/
theorem request_moves {R : Client v → Client v → Prop} [Std.Refl R] [IsTrans (Client v) R] (w : Requests R) {op : Op v}
    (takes : idle_op op = false) (quiet : message op = none) : Moves R op.perform := by
  cases op with
  | subscribe topic_filter qos =>
    exact (whenConnected (w.subscribe _ fun pid => w.adding pid topic_filter qos)).bind fun _ => Moves.pure _
  | subscribe_multiple subscriptions =>
    refine (whenConnected (Moves.ite (fun _ => Moves.pure _) fun _ => ?_)).bind fun _ => Moves.pure _
    exact w.subscribe _ fun pid => w.add_subscriptions pid subscriptions
  | unsubscribe topic_filter =>
    exact (whenConnected (w.unsubscribe _ fun _ => w.removing topic_filter)).bind fun _ => Moves.pure _
  | unsubscribe_multiple topic_filters =>
    refine (whenConnected (Moves.ite (fun _ => Moves.pure _) fun _ => ?_)).bind fun _ => Moves.pure _
    exact w.unsubscribe _ fun _ => Moves.forM w.removing _
  | subscribe_v5 subscriptions config =>
    refine (whenConnected (Moves.ite (fun _ => Moves.pure _) fun _ => ?_)).bind fun _ => Moves.pure _
    refine w.request (fun pid packet created => ?_) fun pid => w.add_subscriptions pid subscriptions
    cases subscriptions <;> cases created
    trivial
  | publish _ _ _ | publish_v5 _ _ _ _ => cases quiet
  | _ => cases takes

/-- The operation takes on a message although the limit is reached with the PUBRELs, unless
    the message replaces one. -/
def Overfills (c : Client v) (op : Op v) : Prop := ∃ topic payload config, message op = some (topic, payload, config) ∧
  Accepts c config.qos ∧ c.session_state.next_pid ∉ c.session_state.pending_publishes ∧
    c.config.max_inflight_messages ≤ in_flight c.session_state

/-- A call that does not overfill keeps the limit. -/
theorem in_flight_after {c : Client v} (reachable : c.Reachable) {call : Call v}
    (room : ¬ Overfills (c.withWorld call.world) call.op)
    (bounded : in_flight c.session_state ≤ c.config.max_inflight_messages) :
    in_flight (c.after call).session_state ≤ c.config.max_inflight_messages := by
  obtain ⟨op, world⟩ := call
  have idle : (c.withWorld world).Idle := reachable.idle
  have linked := Reconnect.connected_linked reachable
  cases published : message op with
  | some published_message =>
    obtain ⟨topic, payload, config⟩ := published_message
    obtain ⟨first, -, ends⟩ := op_publishes (c := c.withWorld world) idle linked published
    cases ends with
    | nothing _ same => exact (in_flight_handshakes same).trans_le bounded
    | stored accepts _ same _ =>
      have pending : (c.after ⟨op, world⟩).session_state.pending_publishes = _ := congrArg Prod.fst same
      have pubrels : (c.after ⟨op, world⟩).session_state.pending_pubrels = _ := congrArg Prod.snd same
      let stored := Operations.stored (c.withWorld world) topic config.qos config.retain payload
      rw [in_flight, pending, pubrels]
      change len (c.session_state.pending_publishes.insert c.session_state.next_pid stored) +
        len c.session_state.pending_pubrels ≤ _
      by_cases replaces : c.session_state.next_pid ∈ c.session_state.pending_publishes
      · rw [len_insert replaces]
        exact bounded
      · have less : ¬ c.config.max_inflight_messages ≤ in_flight c.session_state := fun full =>
          room ⟨topic, payload, config, published, accepts, replaces, full⟩
        rw [len_insert_absent replaces]
        rw [in_flight] at less
        omega
  | none =>
    cases takes : idle_op op with
    | false =>
      have undisturbed : Undisturbed (c.withWorld world) (c.after ⟨op, world⟩) :=
        request_moves undisturbed_requests takes published _
      exact (in_flight_handshakes undisturbed).trans_le bounded
    | true =>
      obtain ⟨-, -, acts, path⟩ := idle_op_follows takes (c.withWorld world) idle
      refine Path.invariant (I := fun view => in_flight view.session ≤ c.config.max_inflight_messages)
        (fun view act allowed bounded => ?_) path bounded
      exact (in_flight_act allowed rfl).trans bounded

/-- As long as no publish overfills, the messages in flight stay within the limit. -/
theorem in_flight_bounded (world : World v.Packet v.Error) (setup : v.Setup) (config : ClientConfig)
    {calls : List (Call v)} (room : Along Client.after (fun c call => ¬ Overfills (c.withWorld call.world) call.op)
      (MqttClient.new world (v.handler setup) config) calls) :
    in_flight (Client.run (MqttClient.new world (v.handler setup) config) calls).session_state ≤
      config.max_inflight_messages := by
  refine (Runs.invariant (I := fun c : Client v => c.Reachable ∧ c.config = config ∧
    in_flight c.session_state ≤ config.max_inflight_messages) (fun c call holds room => ?_)
    ⟨⟨world, setup, config, [], rfl⟩, rfl, Nat.zero_le _⟩ room).2.2
  obtain ⟨reachable, same, bounded⟩ := holds
  have kept := (c.call_path reachable.idle call).2.1
  refine ⟨reachable.after call, kept.trans same, ?_⟩
  rw [← same] at bounded ⊢
  exact in_flight_after reachable room bounded

end

/-! ### A PUBREL in flight -/

section
local instance : Codec V3.Packet MqttProtoError := Wire.v3Codec
local instance : Codec V5.Packet ErrorV5 := Wire.v5Codec

/-- One message in flight is the limit. -/
def config : ClientConfig := { max_inflight_messages := 1 }

def connecting : Call .v3 := ⟨.connect, .obliging true [.Connack ⟨false, 0⟩]⟩
def publishing : Call .v3 := ⟨.publish "a" [1] ⟨.Level2, false⟩, .obliging true []⟩
def polling : Call .v3 := ⟨.poll, .obliging true [.Pubrec .default]⟩

theorem in_flight_bounded_publishing : in_flight (Client.run (MqttClient.new (.obliging true [])
    (Version.handler .v3 ()) config : Client .v3) [connecting, publishing]).session_state ≤ 1 := by
  refine in_flight_bounded (v := .v3) (.obliging true []) () config ⟨?_, ?_, trivial⟩
  · rintro ⟨topic, payload, config, published, -⟩
    cases published
  · rintro ⟨topic, payload, config, -, -, -, full⟩
    exact absurd full (by decide)

/-- While a PUBREL waits for its PUBCOMP, another message is taken on. -/
theorem limit_exceeded : ¬ ∀ (world : World V3.Packet MqttProtoError) (config : ClientConfig) (calls : List (Call .v3)),
    config.validate = .ok () → in_flight (Client.run (MqttClient.new world (Version.handler .v3 ()) config : Client .v3)
      calls).session_state ≤ config.max_inflight_messages := by
  intro bounded
  have two := bounded (.obliging true []) config [connecting, publishing, polling, publishing] (by decide)
  exact absurd two (by decide +kernel)

end

end Masaka.Inflight
