import Masaka.Flags
import Masaka.Wire

/-!
Connections that are over. A client that disconnects or gives a connection up says
so in its own state; the flag of its engine is reset by a disconnect that succeeds,
and by nothing else.
-/
namespace Masaka.Closed
open Effect Runs MqttProtocolHandler Sending Flags

section
variable {H P E : Type}

/-- If the client's state says that the connection is over, so does the flag. -/
def Unlinked (state : ConnectionState × Bool) : Prop :=
  state.1 = .Disconnected ∨ state.1 = .Error → state.2 = false

theorem unlinked_clear (state : ConnectionState) : Unlinked (state, false) := fun _ => rfl
theorem unlinked_other {state : ConnectionState} {flag : Bool} (running : state ≠ .Disconnected) (fine : state ≠ .Error) :
    Unlinked (state, flag) := by
  intro closed
  rcases closed with same | same
  · exact absurd same running
  · exact absurd same fine

/-- A connect that does not give the connection up. -/
theorem connect_unlinked {c : MqttClient H P E} {r : Except (Halt MqttError) Unit} {after : ConnectionState × Bool}
    (connects : Connects c r after) (unlinked : Unlinked (flags c))
    (careful : ¬ (c.protocol_engine.connected = true ∧ c.config.validate = .ok ())) : Unlinked after := by
  cases connects with
  | invalid _ => exact unlinked
  | refused valid flag => exact absurd ⟨flag, valid⟩ careful
  | failed _ => exact unlinked_clear _
  | dropped _ => exact unlinked_clear _
  | accepted _ _ => exact unlinked_other (by decide) (by decide)

end

section
variable [Codec V3.Packet MqttProtoError] [Codec V5.Packet ErrorV5] {v : Version}

/-- The client's state agrees with its engine that the connection is over: then the
    engine's flag is not set, and a poll neither writes nor receives anything. -/
def Agrees (c : Client v) : Prop := c.state.connection_state = .Disconnected ∨ c.state.connection_state = .Error →
  c.protocol_engine.connected = false ∧ ∀ world, c.events ⟨.poll, world⟩ = []

/-- The operation would give the connection up and leave the flag set: a connect while
    the flag is set, a disconnect that cannot be sent, and a poll that finds the link
    down or the timeout passed, or that fails to receive. -/
def gives_up (c : Client v) : Op v → Prop
  | .connect => c.config.validate = .ok ()
  | .reconnect => Attempts c ∧ c.config.validate = .ok ()
  | .disconnect => c.state.connection_state ≠ .Disconnected ∧
      Unsendable c.protocol_engine (create_disconnect_packet c.protocol_engine.handler)
  | .poll => if c.protocol_engine.world.is_connected then FailsToReceive c else LosesLink c
  | _ => False

/-- The call gives the connection up although the flag is set. -/
def Abandons (c : Client v) (call : Call v) : Prop :=
  c.protocol_engine.connected = true ∧ gives_up (c.withWorld call.world) call.op

theorem agrees_iff {c : Client v} : Agrees c ↔ Unlinked (flags c) := by
  constructor
  · intro agrees closed
    exact (agrees closed).1
  · intro unlinked closed
    have flag : c.protocol_engine.connected = false := unlinked closed
    have other : c.state.connection_state ≠ .Connected := by
      rcases closed with same | same <;> rw [same] <;> decide
    refine ⟨flag, fun world => ?_⟩
    have log : (c.after ⟨.poll, world⟩).protocol_engine.log = c.protocol_engine.log := by
      rw [c.after_poll]
      exact congrArg (·.log) (poll_unlinked (c := c.withWorld world) other flag).2
    rw [Client.events, log, List.drop_length]

/-- A call that does not give the connection up keeps the agreement. -/
theorem unlinked_after {c : Client v} (reachable : c.Reachable) {call : Call v} (careful : ¬ Abandons c call)
    (unlinked : Unlinked (flags c)) : Unlinked (flags (c.after call)) := by
  obtain ⟨op, world⟩ := call
  have idle : (c.withWorld world).Idle := reachable.idle
  by_cases linking : links op = false
  · have steady : Steady (c.withWorld world) (c.after ⟨op, world⟩) := perform_steady linking _
    rw [steady.flags]
    exact unlinked
  change wp op.perform (c.withWorld world) fun _ c' => Unlinked (flags c')
  cases op with
  | connect =>
    refine wp_result (wp_mono (connect_flags _) fun r c' connects => ?_)
    exact connect_unlinked connects unlinked careful
  | reconnect =>
    refine wp_result (wp_mono (reconnect_flags _) fun r c' ended => ?_)
    generalize flags c' = after at ended
    cases ended with
    | refused _ => exact unlinked
    | dropped => exact unlinked
    | connects attempts connects =>
      exact connect_unlinked connects unlinked fun gives => careful ⟨gives.1, attempts, gives.2⟩
  | disconnect =>
    refine wp_result (wp_mono (disconnect_flags idle) fun r c' ended => ?_)
    generalize flags c' = after at ended
    cases ended with
    | nothing _ => exact unlinked
    | unsent running flag unsendable => exact absurd ⟨flag, running, unsendable⟩ careful
    | closed _ => exact unlinked_clear _
    | dropped _ => exact unlinked_other (by decide) (by decide)
  | poll =>
    have linked := Reconnect.connected_linked reachable
    refine wp_result (wp_mono (poll_flags idle linked) fun r c' ended => ?_)
    by_cases flag : c.protocol_engine.connected = true
    swap
    · have free : c.protocol_engine.connected = false := Bool.eq_false_iff.mpr flag
      rcases ended with same | ⟨-, -, same⟩ | ⟨-, -, same⟩
      · rw [same]; exact unlinked
      · rw [same]; exact fun _ => free
      · rw [same]; exact fun _ => free
    have up : (c.withWorld world).protocol_engine.is_connected = world.is_connected := by
      rw [MqttProtocolEngine.is_connected, show (c.withWorld world).protocol_engine.connected = true from flag]
      rfl
    rw [up] at ended
    have careful : ¬ gives_up (c.withWorld world) .poll := fun gives => careful ⟨flag, gives⟩
    rcases ended with same | ⟨alive, fails, -⟩ | ⟨dead, loses, -⟩
    · rw [same]; exact unlinked
    · exact absurd (by rw [gives_up, if_pos (by exact alive)]; exact fails) careful
    · exact absurd (by rw [gives_up, if_neg (by exact Bool.eq_false_iff.mp dead)]; exact loses) careful
  | _ => exact absurd rfl linking

/-- As long as no call gives the connection up while the flag is set, client and
    engine agree on every connection that is over. -/
theorem closed_agrees (world : World v.Packet v.Error) (setup : v.Setup) (config : ClientConfig) {calls : List (Call v)}
    (careful : Along Client.after (fun c call => ¬ Abandons c call) (MqttClient.new world (v.handler setup) config) calls) :
    Agrees (Client.run (MqttClient.new world (v.handler setup) config) calls) := by
  rw [agrees_iff]
  refine (Runs.invariant (I := fun c : Client v => c.Reachable ∧ Unlinked (flags c)) (fun c call holds careful => ?_)
    ⟨⟨world, setup, config, [], rfl⟩, unlinked_clear _⟩ careful).2
  exact ⟨holds.1.after call, unlinked_after holds.1 careful holds.2⟩

end

/-! ### A connection that is given up -/

section
local instance : Codec V3.Packet MqttProtoError := Wire.v3Codec
local instance : Codec V5.Packet ErrorV5 := Wire.v5Codec

def new_client : Client .v3 := MqttClient.new (.obliging true []) (Version.handler .v3 ()) {}
def connecting : Call .v3 := ⟨.connect, .obliging true [.Connack ⟨false, 0⟩]⟩
def disconnecting : Call .v3 := ⟨.disconnect, .obliging true []⟩

/-- A poll after one and a half keep-alive intervals without a packet. -/
def polling_late : Call .v3 := ⟨.poll, { World.obliging true [] with now := fun _ => 90000 }⟩

theorem closed_agrees_disconnect : Agrees (Client.run new_client [connecting, disconnecting]) := by
  refine closed_agrees (v := .v3) _ () {} ⟨?_, ?_, trivial⟩
  · rintro ⟨flag, -⟩
    exact absurd flag (by decide)
  · rintro ⟨-, -, unsendable⟩
    have encodes : encode_packet (P := V3.Packet) V3Handler.mk V3.Packet.Disconnect = .ok [0xE0, 0] := rfl
    exact not_unsendable encodes (fun _ => rfl) rfl unsendable

/-- After the timeout the client is in error, and the flag is still set. -/
theorem flag_kept : ¬ ∀ (world : World V3.Packet MqttProtoError) (config : ClientConfig) (calls : List (Call .v3)),
    Agrees (Client.run (MqttClient.new world (Version.handler .v3 ()) config : Client .v3) calls) := by
  intro agrees
  have unset := (agrees (.obliging true []) {} [connecting, polling_late] (.inr (by decide +kernel))).1
  have set : (Client.run new_client [connecting, polling_late]).protocol_engine.connected = true := by decide +kernel
  cases set.symm.trans unset

end

end Masaka.Closed
