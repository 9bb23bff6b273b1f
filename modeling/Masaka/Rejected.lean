import Masaka.Publishing
import Masaka.Wire

/-!
Publishes that fail. The message is stored before its packet is encoded and sent,
and stays in the session when that fails.
-/
namespace Masaka.Rejected
open Effect Tables Sending Publishing

section
variable [Codec V3.Packet MqttProtoError] [Codec V5.Packet ErrorV5] {v : Version}

/-- If the call returns an error, the pending messages are those from before. -/
def LeavesNothing (c : Client v) (call : Call v) : Prop := ∀ err, (c.call call).1 = .error (.err err) →
  ∀ pid, (c.after call).session_state.pending_publishes.lookup pid = c.session_state.pending_publishes.lookup pid

/-- The operation takes on a message that is not yet stored under the next identifier,
    and whose packet cannot be sent. -/
def Leaves (c : Client v) (op : Op v) : Prop := ∃ topic payload config first,
  message op = some (topic, payload, config) ∧ Accepts c config.qos ∧ packet c op = some (.ok first) ∧
    Unsendable c.protocol_engine first ∧ c.session_state.pending_publishes.lookup c.session_state.next_pid ≠
      some (Operations.stored c topic config.qos config.retain payload)

theorem leaves_iff {c : Client v} (idle : c.Idle)
    (linked : c.state.connection_state = .Connected → c.protocol_engine.connected = true) {op : Op v}
    (publishes : message op ≠ none) : (∀ err, (exec op.perform c).1 = .error (.err err) → ∀ pid,
      (exec op.perform c).2.session_state.pending_publishes.lookup pid = c.session_state.pending_publishes.lookup pid) ↔
        ¬ Leaves c op := by
  obtain ⟨⟨topic, payload, config⟩, published⟩ := Option.ne_none_iff_exists'.mp publishes
  obtain ⟨created, made, ends⟩ := op_publishes idle linked published
  cases ends with
  | nothing declines same =>
    have kept : (exec op.perform c).2.session_state.pending_publishes = c.session_state.pending_publishes :=
      congrArg Prod.fst same
    refine ⟨?_, fun _ _ _ pid => by rw [kept]⟩
    rintro - ⟨topic', payload', config', first, published', accepts, -⟩
    cases published.symm.trans published'
    exact declines accepts
  | @stored first accepts sent same fails =>
    have kept : (exec op.perform c).2.session_state.pending_publishes = c.session_state.pending_publishes.insert
        c.session_state.next_pid (Operations.stored c topic config.qos config.retain payload) := congrArg Prod.fst same
    rw [kept]
    constructor
    · rintro leaves ⟨topic', payload', config', first', published', -, made', unsendable, other⟩
      cases published.symm.trans published'
      subst sent
      cases made.symm.trans made'
      obtain ⟨err, failed⟩ := fails.mpr unsendable
      have still := leaves err failed c.session_state.next_pid
      rw [AList.lookup_insert] at still
      exact other still.symm
    · intro clean err failed pid
      rw [lookup_insert_if]
      split
      · rename_i here
        rw [here]
        by_contra other
        subst sent
        refine clean ⟨topic, payload, config, first, published, accepts, made, fails.mp ⟨err, failed⟩, ?_⟩
        exact fun stored => other stored.symm
      · rfl

/-- A publish that fails leaves the pending messages alone exactly if it does not first
    take on its message and then fail to send the packet. -/
theorem leaves_nothing_iff {c : Client v} (reachable : c.Reachable) {call : Call v} (publishes : message call.op ≠ none) :
    LeavesNothing c call ↔ ¬ Leaves (c.withWorld call.world) call.op := by
  have linked := Reconnect.connected_linked reachable
  exact leaves_iff (c := c.withWorld call.world) reachable.idle linked publishes

end

section
local instance : Codec V3.Packet MqttProtoError := Wire.v3Codec
local instance : Codec V5.Packet ErrorV5 := Wire.v5Codec

def connected : Client .v3 := Client.run (MqttClient.new (.obliging true []) {} {})
  [⟨.connect, .obliging true [.Connack ⟨false, 0⟩]⟩]

/-- A publish over a transport that takes nothing. -/
def publishing : Call .v3 :=
  ⟨.publish "a" [1] ⟨.Level1, false⟩, { World.obliging true [] with write := fun _ => some (.error .ConnectionLost) }⟩

theorem connected_reachable : connected.Reachable := ⟨_, (), _, _, rfl⟩

theorem leaves_nothing_publishing :
    LeavesNothing connected publishing ↔ ¬ Leaves (connected.withWorld publishing.world) publishing.op :=
  leaves_nothing_iff connected_reachable (by decide)

/-- The caller is told that the publish failed, and its message is pending. -/
theorem message_left : ¬ ∀ (c : Client .v3) (call : Call .v3), c.Reachable → message call.op ≠ none →
    LeavesNothing c call := by
  intro leaves
  have still := leaves connected publishing connected_reachable (by decide) (.Transport .ConnectionLost) (by decide) .default
  exact absurd still (by decide)

end

end Masaka.Rejected
