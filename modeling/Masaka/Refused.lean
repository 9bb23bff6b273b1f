import Masaka.Reconnect

/-!
Connects that are refused before a CONNECT is written. The configuration is checked
first of all; but when the engine refuses a second connection, the client has left its
state already, and a clean start has emptied the session.
-/
namespace Masaka.Refused
open Effect MqttProtocolHandler

/-- A change of the connection state to an error is counted. -/
theorem error_counted (state : ClientState) :
    ((state.set_connection_state .Connecting).set_connection_state .Error).stats ≠ state.stats := by
  intro same
  have count : ((state.set_connection_state .Connecting).set_connection_state .Error).stats.error_count =
      state.stats.error_count + 1 := by
    cases before : state.connection_state <;> simp [ClientState.set_connection_state, ClientState.count_change, before]
  rw [same] at count
  have sum := congrArg UInt32.toNat count
  rw [UInt32.toNat_add, show (1 : UInt32).toNat = 1 from rfl] at sum
  have top := state.stats.error_count.toNat_lt
  omega

section
variable [Codec V3.Packet MqttProtoError] [Codec V5.Packet ErrorV5] {v : Version}

/-- The client refuses a connect: its configuration is invalid, or its engine is connected. -/
def Refuses (c : Client v) : Prop := c.config.validate ≠ .ok () ∨ c.protocol_engine.connected = true

/-- A connect has left the session, the connection state and the statistics as they were. -/
structure Unchanged (c : Client v) (world : World v.Packet v.Error) : Prop where
  session : (c.after ⟨.connect, world⟩).session_state = c.session_state
  state : (c.after ⟨.connect, world⟩).state.connection_state = c.state.connection_state
  stats : (c.after ⟨.connect, world⟩).state.stats = c.state.stats

/-- A refused connect returns an error, and nothing is written. -/
theorem refuses_silently {c : Client v} (refuses : Refuses c) (world : World v.Packet v.Error) :
    (∃ err, (c.call ⟨.connect, world⟩).1 = .error (.err err)) ∧
      ∀ bytes answer, .write bytes answer ∉ c.events ⟨.connect, world⟩ := by
  have value := c.connect_returns world
  have after := c.after_connect world
  by_cases valid : c.config.validate = .ok ()
  · have flag : c.protocol_engine.connected = true := refuses.resolve_left fun invalid => invalid valid
    rw [Reconnect.connect_refused (c := c.withWorld world) flag valid] at value after
    refine ⟨⟨_, value⟩, fun bytes answer => ?_⟩
    have log : (c.after ⟨.connect, world⟩).protocol_engine.log = c.protocol_engine.log ++ _ :=
      (congrArg (·.protocol_engine.log) after).trans (Reconnect.beginning_log (c.withWorld world))
    rw [Client.events, log, List.drop_left]
    split <;> simp
  · obtain ⟨err, ran⟩ := Reconnect.connect_invalid (c := c.withWorld world) valid
    rw [ran] at value after
    refine ⟨⟨_, value⟩, fun bytes answer => ?_⟩
    have log : (c.after ⟨.connect, world⟩).protocol_engine.log = c.protocol_engine.log :=
      congrArg (·.protocol_engine.log) after
    rw [Client.events, log, List.drop_length]
    exact List.not_mem_nil

/-- A refused connect returns an error and writes nothing, and it changes nothing exactly if the
    configuration is invalid. -/
theorem refused_unchanged_iff {c : Client v} {world : World v.Packet v.Error} (refuses : Refuses c) :
    ((∃ err, (c.call ⟨.connect, world⟩).1 = .error (.err err)) ∧
      ∀ bytes answer, .write bytes answer ∉ c.events ⟨.connect, world⟩) ∧
    (Unchanged c world ↔ c.config.validate ≠ .ok ()) := by
  refine ⟨refuses_silently refuses world, ?_⟩
  have after := c.after_connect world
  constructor
  · intro unchanged valid
    have flag : c.protocol_engine.connected = true := refuses.resolve_left fun invalid => invalid valid
    have stats := unchanged.stats
    rw [after, Reconnect.connect_refused (c := c.withWorld world) flag valid] at stats
    exact error_counted _ stats
  · intro invalid
    obtain ⟨err, ran⟩ := Reconnect.connect_invalid (c := c.withWorld world) invalid
    rw [ran] at after
    exact ⟨congrArg (·.session_state) after, congrArg (·.state.connection_state) after, congrArg (·.state.stats) after⟩

end

/-! ### A healthy connection -/

section
local instance : Codec V3.Packet MqttProtoError := Wire.v3Codec
local instance : Codec V5.Packet ErrorV5 := Wire.v5Codec

/-- A connected client with a message that waits for its acknowledgment. -/
def publishing : Client .v3 := Client.run (MqttClient.new (.obliging true []) (Version.handler .v3 ()) {})
  [⟨.connect, .obliging true [.Connack ⟨false, 0⟩]⟩, ⟨.publish "a" [1] ⟨.Level1, false⟩, .obliging true []⟩]

/-- A client with an empty identifier. -/
def unnamed : Client .v3 := MqttClient.new (.obliging true []) (Version.handler .v3 ()) { client_id := "" }

theorem refused_unchanged_both :
    ¬ Unchanged publishing (.obliging true []) ∧ Unchanged unnamed (.obliging true []) :=
  ⟨fun unchanged => (refused_unchanged_iff (.inr (by decide +kernel))).2.mp unchanged (by decide +kernel),
    (refused_unchanged_iff (.inl (by decide +kernel))).2.mpr (by decide +kernel)⟩

theorem publishing_reachable : publishing.Reachable := ⟨_, (), _, _, rfl⟩

/-- A second connect empties the session of a connected client. -/
theorem session_lost : ¬ ∀ (c : Client .v3) (world : World V3.Packet MqttProtoError), c.Reachable → Refuses c →
    Unchanged c world := by
  intro unchanged
  have session := (unchanged publishing (.obliging true []) publishing_reachable (.inr (by decide +kernel))).session
  have lost : (publishing.after ⟨.connect, .obliging true []⟩).session_state ≠ publishing.session_state := by
    decide +kernel
  exact lost session

end

end Masaka.Refused
