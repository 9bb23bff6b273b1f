import Masaka.Pacing
import Masaka.Sweep
import Masaka.Wire

/-!
What becomes of the limits that a broker announces in its CONNACK. `handle_packet`
only logs them. So a client does the same whatever they are: changing them in the
packets to come changes nothing but these packets in the log (`limits_only_logged`).
-/
namespace Masaka.Limits
open Effect MqttProtocolHandler MqttProtocolEngine
open MqttClient (engine engineSession)

variable {H P E α : Type}

/-! ### Changing the packets that arrive -/

section
variable (t : P → P)

def change_read : Read P E → Read P E
  | .packet packet => .packet (t packet)
  | .failed consumed err => .failed consumed err
  | .waiting consumed => .waiting consumed

def change_world (world : World P E) : World P E := { world with read := fun n => change_read t (world.read n) }

def change_event : Event P → Event P
  | .received packet => .received (t packet)
  | event => event

/-- The packets that have arrived and that will arrive, and nothing else, are changed. -/
def change_engine (e : MqttProtocolEngine H P E) : MqttProtocolEngine H P E :=
  { e with world := change_world t e.world, log := e.log.map (change_event t) }

def change_session (s : MqttProtocolEngine H P E × InMemorySession) : MqttProtocolEngine H P E × InMemorySession :=
  (change_engine t s.1, s.2)

def change_client (c : MqttClient H P E) : MqttClient H P E :=
  { c with protocol_engine := change_engine t c.protocol_engine }

end

section
variable {t : P → P}

/-! ### What does not notice it -/

theorem logged (event : Event P) (other : change_event t event = event) (e : MqttProtocolEngine H P E) :
    (change_engine t e).log ++ [event] = (e.log ++ [event]).map (change_event t) := by
  rw [List.map_append, List.map_singleton, other]
  rfl

theorem recording (event : Event P) (other : change_event t event = event) :
    Commutes (change_engine t) (modify (record event) : EngineM H P E PUnit) := by
  apply Commutes.modify
  intro e
  rw [record, logged event other]
  rfl

theorem queueing (frame : Frame P) : Commutes (change_engine t) (modify fun e =>
    record (.queued frame) { e with write_queue := e.write_queue ++ [frame] } : EngineM H P E PUnit) := by
  apply Commutes.modify
  intro e
  rw [record, record, logged (.queued frame) rfl]
  rfl

theorem clock : Commutes (change_engine t) (current_timestamp_ms : EngineM H P E Nat) := by
  apply Commutes.ofExec
  intro e
  rw [logged (.clock _) rfl]
  rfl

theorem waiting (ms : UInt32) : Commutes (change_engine t) (delay ms : EngineM H P E Unit) := by
  apply Commutes.ofExec
  intro e
  rw [logged (.delay ms) rfl]
  rfl

theorem writing (bytes : Bytes) : Commutes (change_engine t) (write bytes : EngineM H P E Nat) := by
  apply Commutes.ofExec
  intro e
  dsimp only
  rw [logged (.write _ _) rfl]
  rfl

theorem flushing : Commutes (change_engine t) (flush : EngineM H P E Unit) := by
  apply Commutes.ofExec
  intro e
  rw [logged (.flush _) rfl]
  rfl

theorem closing : Commutes (change_engine t) (close : EngineM H P E Unit) := by
  apply Commutes.ofExec
  intro e
  rw [logged (.close _) rfl]
  rfl

theorem clearing : Commutes (change_client t) (MqttClient.clear_session : ClientM H P E Unit) := by
  apply Commutes.modify
  intro c
  change ({ c with session_state := _, protocol_engine := record .cleared (change_engine t c.protocol_engine) } :
    MqttClient H P E) = _
  rw [record, logged .cleared rfl]
  rfl

section
variable [MqttProtocolHandler H P E] (unread : ∀ (h : H) packet, handle_packet h (t packet) = handle_packet h packet)
include unread

/-- The action of a packet is all that is seen of it. -/
theorem receive_packet_unlogged :
    Commutes (change_engine t) (receive_packet_unlogged : EngineM H P E PacketAction) := by
  intro e
  have reads : exec (read_from_transport (H := H)) (change_engine t e) =
      ((exec read_from_transport e).1.map t, change_engine t (exec read_from_transport e).2) := by
    have changed : (change_engine t e).world.read 0 = change_read t (e.world.read 0) := rfl
    simp only [read_from_transport, exec_ofExec, changed]
    cases e.world.read 0 with
    | failed consumed err => rfl
    | waiting consumed => rfl
    | packet packet =>
      have noted : (change_engine t e).log ++ [Event.received (t packet)] =
          (e.log ++ [Event.received packet]).map (change_event t) := by
        rw [List.map_append]
        rfl
      simp only [change_read, record, noted]
      rfl
  rw [MqttProtocolEngine.receive_packet_unlogged, exec_bind, exec_bind, reads]
  rcases exec (read_from_transport (H := H)) e with ⟨h | packet, e'⟩
  · rfl
  have noting : ∀ packet : P, Commutes (change_engine t) (current_timestamp_ms >>= fun current_time =>
      modify (update_last_received_time current_time) >>= fun _ => get >>= fun e =>
        ofExcept (into H) (handle_packet e.handler packet) : EngineM H P E PacketAction) := by
    intro packet
    refine clock.bind fun time => Commutes.bind (Commutes.modify fun _ => rfl) fun _ => ?_
    exact Commutes.get_bind (fun _ => rfl) fun _ => Commutes.ofExcept _ _
  simp only [Except.map, unread]
  exact noting packet e'

/-- No operation notices a change of the packets that keeps what is read of them. -/
theorem sweep : FullSweep (H := H) (fun e n => change_read t (e.world.read n)) (fun e => e.log.map (change_event t))
    (fun _ m => Commutes (change_engine t) m) (fun _ m => Commutes (change_session t) m)
    fun _ m => Commutes (change_client t) m where
  ofE := Commutes.compositional _
  ofS := Commutes.compositional _
  ofC := Commutes.compositional _
  inEngine same := same.zoom (fun _ => rfl) fun _ _ => rfl
  ofEngine same := same.zoom (fun _ => rfl) fun _ _ => rfl
  ofSession same := same.zoom (fun _ => rfl) fun _ _ => rfl
  write := writing
  flush := flushing
  clock := clock
  sent_time _ := Commutes.modify fun _ => rfl
  dequeued _ := Commutes.modify fun _ => rfl
  queued := queueing
  sent frame := recording (.sent frame) rfl
  handed_out pid := recording (.handed_out pid) rfl
  accepted pid := recording (.accepted pid) rfl
  handler _ := Commutes.modify fun _ => rfl
  onSession _ _ := rfl
  counting := Commutes.modify fun _ => rfl
  adding _ := Commutes.modify fun _ => rfl
  removing _ := Commutes.modify fun _ => rfl
  popping := Commutes.ofExec fun _ => rfl
  delay := waiting
  close := closing
  receive := receive_packet_unlogged unread
  interval _ := Commutes.modify fun _ => rfl
  link _ := Commutes.modify fun _ => rfl
  cleared := clearing
  entering _ := Commutes.modify fun _ => rfl
  attempts _ := Commutes.modify fun _ => rfl

end

end

/-! ### Runs -/

section
variable [Codec V3.Packet MqttProtoError] [Codec V5.Packet ErrorV5] {v : Version}

/-- The call, with the packets that arrive during it changed. -/
def change_call (t : v.Packet → v.Packet) (call : Call v) : Call v := { call with world := change_world t call.world }

theorem call_commutes {t : v.Packet → v.Packet} (unread : ∀ (h : v.Handler) packet, handle_packet h (t packet) =
    handle_packet h packet) (c : Client v) (call : Call v) :
    Client.call (change_client t c) (change_call t call) = ((c.call call).1, change_client t (c.call call).2) :=
  (sweep unread).perform call.op (c.withWorld call.world)

end

/-! ### The limits of a CONNACK -/

/-- The packet, a CONNACK without its properties. -/
def unannounced : V5.Packet → V5.Packet
  | .Connack connack => .Connack { connack with properties := {} }
  | packet => packet

/-- The limits in force: those of the CONNACK that arrived last. -/
def announced (limits : V5.ConnackProperties) : List (Event V5.Packet) → V5.ConnackProperties
  | [] => limits
  | .received (.Connack connack) :: events => announced connack.properties events
  | _ :: events => announced limits events

/-- The PUBLISH packets sent, each with the limits in force. -/
def published (limits : V5.ConnackProperties) : List (Event V5.Packet) → List (V5.ConnackProperties × V5.Publish)
  | [] => []
  | .received (.Connack connack) :: events => published connack.properties events
  | .sent ⟨.Publish publish, _⟩ :: events => (limits, publish) :: published limits events
  | _ :: events => published limits events

/-- Every PUBLISH sent respects a limit. -/
def Publishes (respects : V5.ConnackProperties → V5.Publish → Prop) (c : Client .v5) : Prop :=
  ∀ sent ∈ published {} c.protocol_engine.log, respects sent.1 sent.2

def RespectsQos (limits : V5.ConnackProperties) (publish : V5.Publish) : Prop :=
  ∀ max_qos ∈ limits.max_qos, Wire.level publish.qos_pid.qos ≤ Wire.level max_qos
def RespectsRetain (limits : V5.ConnackProperties) (publish : V5.Publish) : Prop :=
  limits.retain_available = some false → publish.retain = false
/-- Without a maximum there are no aliases. -/
def RespectsAlias (limits : V5.ConnackProperties) (publish : V5.Publish) : Prop :=
  ∀ topic_alias ∈ publish.properties.topic_alias, topic_alias ≤ limits.topic_alias_max.getD 0

/-- The messages above level 0 that are not completed. -/
def incomplete (s : InMemorySession) : Nat := Tables.len s.pending_publishes + Tables.len s.pending_pubrels

def RespectsReceiveMax (c : Client .v5) : Prop := c.protocol_engine.connected = true →
  ∀ receive_max ∈ (announced {} c.protocol_engine.log).receive_max, incomplete c.session_state ≤ receive_max.toNat
def RespectsKeepAlive (c : Client .v5) : Prop := c.protocol_engine.connected = true →
  ∀ secs ∈ (announced {} c.protocol_engine.log).server_keep_alive,
    c.protocol_engine.keep_alive_interval_ms = secs.toNat * 1000

instance (limits : V5.ConnackProperties) (publish : V5.Publish) : Decidable (RespectsQos limits publish) :=
  inferInstanceAs (Decidable (∀ _ ∈ _, _))
instance (limits : V5.ConnackProperties) (publish : V5.Publish) : Decidable (RespectsRetain limits publish) :=
  inferInstanceAs (Decidable (_ → _))
instance (limits : V5.ConnackProperties) (publish : V5.Publish) : Decidable (RespectsAlias limits publish) :=
  inferInstanceAs (Decidable (∀ _ ∈ _, _))
instance (respects : V5.ConnackProperties → V5.Publish → Prop) [∀ limits publish, Decidable (respects limits publish)]
    (c : Client .v5) : Decidable (Publishes respects c) := inferInstanceAs (Decidable (∀ _ ∈ _, _))
instance (c : Client .v5) : Decidable (RespectsReceiveMax c) := inferInstanceAs (Decidable (_ → ∀ _ ∈ _, _))
instance (c : Client .v5) : Decidable (RespectsKeepAlive c) := inferInstanceAs (Decidable (_ → ∀ _ ∈ _, _))

section
variable [Codec V3.Packet MqttProtoError] [Codec V5.Packet ErrorV5]

/-- What the calls return. -/
def replies (c : Client .v5) (calls : List (Call .v5)) : List (Except (Halt MqttError) Reply) :=
  Runs.gather Client.after (fun c call => [(c.call call).1]) c calls

/-- Runs in which the CONNACKs announce different limits are the same but for these
    CONNACKs, and a connected engine has the configured interval. -/
theorem limits_only_logged (world : World V5.Packet ErrorV5) (setup : V5ConnectConfig) (config : ClientConfig)
    {calls calls' : List (Call .v5)} (same : calls.map (change_call unannounced) = calls'.map (change_call unannounced)) :
    let c : Client .v5 := MqttClient.new world (Version.handler .v5 setup) config
    replies c calls = replies c calls' ∧
      change_client unannounced (c.run calls) = change_client unannounced (c.run calls') ∧
      ((c.run calls).protocol_engine.connected = true →
        (c.run calls).protocol_engine.keep_alive_interval_ms = config.keep_alive.toNat * 1000) := by
  intro c
  have unread : ∀ (h : V5Handler) packet, handle_packet h (unannounced packet) = handle_packet h packet := by
    intro h packet
    cases packet <;> rfl
  have step : ∀ (c : Client .v5) call,
      Client.after (change_client unannounced c) (change_call unannounced call) = change_client unannounced (c.after call) :=
    fun c call => congrArg Prod.snd (call_commutes (v := .v5) unread c call)
  have reply : ∀ (c : Client .v5) call,
      [(Client.call (change_client unannounced c) (change_call unannounced call)).1] = [(c.call call).1] :=
    fun c call => congrArg (fun outcome => [outcome.1]) (call_commutes (v := .v5) unread c call)
  refine ⟨?_, ?_, ?_⟩
  · rw [replies, ← Runs.gather_map step reply, same, Runs.gather_map step reply]
    rfl
  · rw [Client.run, ← Runs.run_map step, same, Runs.run_map step]
    rfl
  · exact (Pacing.connected_interval (c := c) (fun connected => by cases connected) calls).2

end

/-! ### A broker with limits -/

section
local instance : Codec V3.Packet MqttProtoError := Wire.v3Codec
local instance : Codec V5.Packet ErrorV5 := Wire.v5Codec

def limits : V5.ConnackProperties where
  receive_max := some 1
  max_qos := some .Level0
  retain_available := some false
  server_keep_alive := some 10

def limited : Client .v5 := MqttClient.new (.obliging true []) (Version.handler .v5 {}) {}
def connecting (limits : V5.ConnackProperties) : Call .v5 := ⟨.connect, .obliging true [.Connack ⟨false, 0, limits⟩]⟩
/-- A retained message of level 1. -/
def publishing : Call .v5 := ⟨.publish_v5 "a" [1] ⟨.Level1, true⟩ {}, .obliging true []⟩

theorem limits_only_logged_two : replies limited [connecting limits, publishing] = replies limited [connecting {}, publishing] := by
  have unread : change_call unannounced (connecting limits) = change_call unannounced (connecting {}) := by
    let connect (read : Nat → Read V5.Packet ErrorV5) : Call .v5 :=
      ⟨.connect, { (World.obliging true [] : World V5.Packet ErrorV5) with read := read }⟩
    refine congrArg connect (funext fun n => ?_)
    cases n with
    | zero => rfl
    | succ n => rfl
  have same : [connecting limits, publishing].map (change_call unannounced) =
      [connecting {}, publishing].map (change_call unannounced) :=
    congrArg (fun call => [call, change_call unannounced publishing]) unread
  exact (limits_only_logged (.obliging true []) {} {} same).1

/-- Two retained messages of level 1 with an alias are sent, both wait for their
    acknowledgments, and the interval is a minute. -/
theorem limits_broken : let c := limited.run [connecting limits, publishing, publishing]
    ¬ Publishes RespectsQos c ∧ ¬ Publishes RespectsRetain c ∧ ¬ Publishes RespectsAlias c ∧
      ¬ RespectsReceiveMax c ∧ ¬ RespectsKeepAlive c := by
  decide +kernel

end

end Masaka.Limits
