import Masaka.Operations
import Masaka.Wire

/-!
Sessions that the broker does not have. A connect clears the session if the
configuration asks for a clean one; that the broker reports none makes no difference.
-/
namespace Masaka.Leftover
open Effect MqttProtocolHandler MqttProtocolEngine

/-- Nothing of an old session is left: no filter counts as subscribed to, and nothing is sent again at any time. -/
structure Blank (s : InMemorySession) : Prop where
  subscriptions : ∀ pid record, s.subscriptions.lookup pid = some record → record.state ≠ .Active
  topics : ∀ topic_filter, topic_filter ∉ s.active_topics
  publishes : ∀ pid message, s.pending_publishes.lookup pid = some message → ∀ now, retries now message = false
  pubrels : ∀ pid, pid ∉ s.pending_pubrels

section
variable {H P E α : Type}

/-- The session is as before. -/
def SameSession (c c' : MqttClient H P E) : Prop := c'.session_state = c.session_state

instance : Std.Refl (SameSession (H := H) (P := P) (E := E)) := ⟨fun _ => rfl⟩
instance : IsTrans (MqttClient H P E) SameSession := ⟨fun _ _ _ first second => second.trans first⟩

theorem inEngine (m : EngineM H P E α) : Moves SameSession (zoom MqttClient.engine m) := fun _ => rfl

theorem entering (new : ConnectionState) : Moves SameSession (MqttClient.set_connection_state new : ClientM H P E Unit) :=
  fun _ => rfl

theorem refusing (new : ConnectionState) (err : MqttError) :
    Moves SameSession (MqttClient.set_connection_state new >>= fun _ => fail err : ClientM H P E α) :=
  (entering new).bind fun _ => Moves.fail err

variable [MqttProtocolHandler H P E]

theorem resending : Moves SameSession (MqttClient.resend_pending_messages : ClientM H P E Unit) := by
  refine Moves.get.bind fun c => Moves.forM (fun entry => Moves.get.bind fun c => ?_) _
  exact Moves.bind_ofExcept fun packet _ => inEngine _

/-- A connect without a clean start leaves the session alone, whatever the broker answers. -/
theorem connect_session {c : MqttClient H P E} (kept : c.config.clean_session = false) :
    wp MqttClient.connect c fun _ c' => c'.session_state = c.session_state := by
  rw [MqttClient.connect, wp_bind, wp_get]
  refine Moves.bind (R := SameSession) (Moves.ofExcept _ _) (fun _ => (entering _).bind fun _ => ?_) c
  refine Moves.bind (Moves.onlyIf fun clean => ?_) fun _ => Moves.bind (inEngine _).attempt fun result => ?_
  · cases kept.symm.trans clean
  rcases result with err | action
  · exact refusing _ _
  cases action with
  | ConnectAck session_present return_code =>
    refine Moves.ite (fun _ => (entering _).bind fun _ => ?_) fun _ => refusing _ _
    exact Moves.bind (fun _ => rfl) fun _ => Moves.onlyIf fun _ => resending
  | _ => exact refusing _ _

end

section
variable [Codec V3.Packet MqttProtoError] [Codec V5.Packet ErrorV5] {v : Version}

/-- A connect that succeeds without a clean start, to a broker without a session. -/
structure Unknown (c : Client v) (world : World v.Packet v.Error) : Prop where
  kept : c.config.clean_session = false
  answer : ∃ packet, world.read 0 = .packet packet ∧ LawfulHandler.shape (H := v.Handler) packet = .connack false 0
  succeeds : (c.call ⟨.connect, world⟩).1 = .ok .unit

/-- After it nothing of an old session is left exactly if there was nothing before. -/
theorem blank_after_connect_iff {c : Client v} {world : World v.Packet v.Error} (unknown : Unknown c world) :
    Blank (c.after ⟨.connect, world⟩).session_state ↔ Blank c.session_state := by
  have same : (c.after ⟨.connect, world⟩).session_state = c.session_state := by
    rw [c.after_connect]
    exact connect_session (c := c.withWorld world) unknown.kept
  rw [same]

end

/-! ### A session that the broker has lost -/

section
local instance : Codec V3.Packet MqttProtoError := Wire.v3Codec
local instance : Codec V5.Packet ErrorV5 := Wire.v5Codec

/-- The broker has no session. -/
def lost : World V3.Packet MqttProtoError := .obliging true [.Connack ⟨false, 0⟩]

/-- A disconnected client with a message pending. -/
def interrupted : Client .v3 := Client.run (MqttClient.new (.obliging true []) {} { clean_session := false })
  [⟨.connect, lost⟩, ⟨.publish "a" [1] ⟨.Level1, false⟩, .obliging true []⟩, ⟨.disconnect, .obliging true []⟩]

theorem interrupted_reachable : interrupted.Reachable := ⟨_, (), _, _, rfl⟩

theorem interrupted_unknown : Unknown interrupted lost := ⟨by decide, ⟨_, rfl, rfl⟩, by decide⟩

theorem blank_after_connect_interrupted :
    Blank (interrupted.after ⟨.connect, lost⟩).session_state ↔ Blank interrupted.session_state :=
  blank_after_connect_iff interrupted_unknown

/-- The message is pending still, and is sent again after five seconds. -/
theorem message_kept : ¬ ∀ (c : Client .v3) (world : World V3.Packet MqttProtoError), c.Reachable → Unknown c world →
    Blank (c.after ⟨.connect, world⟩).session_state := by
  intro blank
  have left := blank interrupted lost interrupted_reachable interrupted_unknown
  have stored : (interrupted.after ⟨.connect, lost⟩).session_state.pending_publishes.lookup .default =
      some ⟨"a", .Level1, false, [1], 0, 0⟩ := by decide
  have later := left.publishes _ _ stored 5000
  cases later

end

end Masaka.Leftover
