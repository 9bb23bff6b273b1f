import Masaka.Flags

/-!
The keep-alive interval. A connect sets it from the configuration, which never
changes, and only an engine that is not connected connects: so a connected engine
has the configured interval (`connected_interval`).
-/
namespace Masaka.Pacing
open Effect MqttProtocolHandler MqttProtocolEngine Flags
open MqttClient (engine engineSession)

variable {H P E α : Type}

/-- A connected engine has the interval of the CONNECT. -/
def Paced (alive : UInt16) (e : MqttProtocolEngine H P E) : Prop :=
  e.connected = true → e.keep_alive_interval_ms = alive.toNat * 1000

/-- The configuration stays, and so does the given interval. -/
structure Paces (alive : UInt16) (c c' : MqttClient H P E) : Prop where
  config : c'.config = c.config
  paced : Paced alive c.protocol_engine → Paced alive c'.protocol_engine

instance (alive : UInt16) : Std.Refl (Paces (H := H) (P := P) (E := E) alive) := ⟨fun _ => ⟨rfl, id⟩⟩
instance (alive : UInt16) : IsTrans (MqttClient H P E) (Paces alive) :=
  ⟨fun _ _ _ first second => ⟨second.config.trans first.config, second.paced ∘ first.paced⟩⟩

/-- The configuration stays, and so does its interval. -/
def PacesOwn (c c' : MqttClient H P E) : Prop := Paces c.config.keep_alive c c'

theorem PacesOwn.trans {c c' c'' : MqttClient H P E} (first : PacesOwn c c') (second : PacesOwn c' c'') :
    PacesOwn c c'' := by
  unfold PacesOwn at *
  rw [first.config] at second
  exact trans_of _ first second

instance : Std.Refl (PacesOwn (H := H) (P := P) (E := E)) := ⟨fun _ => ⟨rfl, id⟩⟩
instance : IsTrans (MqttClient H P E) PacesOwn := ⟨fun _ _ _ => PacesOwn.trans⟩

/-- The interval stays. -/
def SameInterval (e e' : MqttProtocolEngine H P E) : Prop := e'.keep_alive_interval_ms = e.keep_alive_interval_ms

instance : Std.Refl (SameInterval (H := H) (P := P) (E := E)) := ⟨fun _ => rfl⟩
instance : IsTrans (MqttProtocolEngine H P E) SameInterval := ⟨fun _ _ _ first second => second.trans first⟩

/-- The interval stays, and an engine that is not connected does not become so. -/
def SameLink (e e' : MqttProtocolEngine H P E) : Prop := (e'.connected = true → e.connected = true) ∧ SameInterval e e'

instance : Std.Refl (SameLink (H := H) (P := P) (E := E)) := ⟨fun _ => ⟨id, rfl⟩⟩
instance : IsTrans (MqttProtocolEngine H P E) SameLink :=
  ⟨fun _ _ _ first second => ⟨first.1 ∘ second.1, second.2.trans first.2⟩⟩

/-- The session may change. -/
abbrev SameLinkS (s s' : MqttProtocolEngine H P E × InMemorySession) : Prop := SameLink s.1 s'.1

instance : Std.Refl (SameLinkS (H := H) (P := P) (E := E)) := ⟨fun _ => ⟨id, rfl⟩⟩
instance : IsTrans (MqttProtocolEngine H P E × InMemorySession) SameLinkS := ⟨fun _ _ _ => trans_of SameLink⟩

theorem Paced.kept {alive : UInt16} {e e' : MqttProtocolEngine H P E} (paced : Paced alive e) (same : SameLink e e') :
    Paced alive e' := fun connected => same.2.trans (paced (same.1 connected))
theorem quiet_link {m : EngineM H P E α} (quiet : Moves Quiet m) : Moves SameLink m :=
  quiet.mono fun _ _ quiet => ⟨quiet.connected.symm.trans, quiet.interval⟩
theorem link_own {m : EngineM H P E α} (link : Moves SameLink m) : Moves PacesOwn (zoom engine m) :=
  link.zoom engine fun _ _ same => ⟨rfl, fun paced => paced.kept same⟩
theorem steady_paces {m : ClientM H P E α} (steady : Moves Steady m) (alive : UInt16) : Moves (Paces alive) m :=
  steady.mono fun _ _ steady =>
    ⟨steady.config, fun paced => paced.kept ⟨steady.engine.connected.symm.trans, steady.engine.interval⟩⟩
theorem steady_own {m : ClientM H P E α} (steady : Moves Steady m) : Moves PacesOwn m := fun c =>
  steady_paces steady c.config.keep_alive c

theorem setting (alive : UInt16) (state : ConnectionState) :
    Moves (Paces alive) (MqttClient.set_connection_state state : ClientM H P E Unit) := fun _ => ⟨rfl, id⟩
theorem setting_own (state : ConnectionState) :
    Moves PacesOwn (MqttClient.set_connection_state state : ClientM H P E Unit) := fun _ => ⟨rfl, id⟩

variable [MqttProtocolHandler H P E]

theorem receiving : Moves SameLink (receive_packet_unlogged : EngineM H P E PacketAction) := by
  have reading : Moves SameLink (read_from_transport : EngineM H P E P) := fun e => by
    unfold read_from_transport
    dsimp only [exec_ofExec]
    split <;> exact ⟨id, rfl⟩
  refine reading.bind fun packet => (quiet_link clock).bind fun time => ?_
  exact Moves.bind (Moves.modify fun _ => ⟨id, rfl⟩) fun _ => Moves.get.bind fun _ => Moves.ofExcept _ _

/-- A handshake sets the interval, unless the engine is connected and stays as it is. -/
theorem connecting_keeps (id : String) (user : Option String) (pass : Option Bytes) (alive : UInt16) (clean : Bool)
    (topic : Option TopicName) (message : Option Bytes) (qos : Option QoS) (retain : Bool) :
    Keeps (Paced alive) (connect_with_will id user pass alive clean topic message qos retain :
      EngineM H P E PacketAction) := by
  intro e
  rw [connect_with_will, exec_bind, exec_get]
  dsimp only
  split
  · exact fun paced => paced
  rw [exec_bind, exec_modify]
  intro _ _
  -- Nothing that follows changes the interval again.
  refine Eq.trans (b := (set_keep_alive_interval alive e).keep_alive_interval_ms) ?_ rfl
  refine (show Moves SameInterval _ from ?_) (set_keep_alive_interval alive e)
  have link : ∀ {m : EngineM H P E PacketAction}, Moves SameLink m → Moves SameInterval m := fun moves =>
    moves.mono fun _ _ => And.right
  have sending : ∀ packet, Moves SameInterval (send_packet (H := H) packet : EngineM H P E Unit) := fun packet =>
    (steady_sweep.send_packet packet).mono fun _ _ => Quiet.interval
  refine Moves.bind_ofExcept fun packet _ => (sending packet).bind fun _ => (link receiving).bind fun action => ?_
  cases action with
  | ConnectAck session_present return_code =>
    exact Moves.ite (fun _ => Moves.bind (Moves.modify fun _ => rfl) fun _ => Moves.pure _) fun _ => Moves.fail _
  | _ => exact Moves.fail _

theorem connecting (id : String) (user : Option String) (pass : Option Bytes) (alive : UInt16) (clean : Bool)
    (topic : Option TopicName) (message : Option Bytes) (qos : Option QoS) (retain : Bool) :
    Moves (Paces alive) (zoom engine (connect_with_will id user pass alive clean topic message qos retain) :
      ClientM H P E PacketAction) := by
  have keeps := connecting_keeps (H := H) (P := P) (E := E) id user pass alive clean topic message qos retain
  exact keeps.moves.zoom engine fun c e paces => ⟨rfl, paces⟩

theorem connect : Moves PacesOwn (MqttClient.connect : ClientM H P E Unit) := by
  intro c
  rw [MqttClient.connect, exec_bind, exec_get]
  refine (show Moves (Paces c.config.keep_alive) _ from ?_) c
  refine Moves.bind_ofExcept fun _ _ => (setting _ _).bind fun _ => ?_
  have clearing : Moves Steady (MqttClient.clear_session : ClientM H P E Unit) := fun c =>
    ⟨rfl, rfl, .event .cleared rfl (by simp) rfl rfl rfl⟩
  refine (Moves.onlyIf fun _ => steady_paces clearing _).bind fun _ => ?_
  refine (Moves.attempt (connecting _ _ _ _ _ _ _ _ _)).bind fun result => ?_
  rcases result with err | action
  · exact (setting _ _).bind fun _ => Moves.fail _
  cases action with
  | ConnectAck session_present return_code =>
    refine Moves.ite (fun _ => (setting _ _).bind fun _ => ?_) fun _ => (setting _ _).bind fun _ => Moves.fail _
    refine Moves.bind (Moves.modify fun _ => ⟨rfl, fun paced => paced⟩) fun _ => ?_
    exact Moves.onlyIf fun _ => steady_paces steady_sweep.resend_pending_messages _
  | _ => exact (setting _ _).bind fun _ => Moves.fail _

theorem reconnect : Moves PacesOwn (MqttClient.reconnect : ClientM H P E Unit) := by
  refine Moves.get.bind fun c => Moves.ite (fun _ => Moves.fail _) fun _ => Moves.ite (fun _ => Moves.fail _) fun _ => ?_
  refine Moves.bind (Moves.modify fun _ => ⟨rfl, fun paced => paced⟩) fun _ => ?_
  exact (steady_own (ofEngine (waiting _))).bind fun _ => connect

theorem disconnect : Moves PacesOwn (MqttClient.disconnect : ClientM H P E Unit) := by
  refine Moves.get.bind fun c => Moves.ite (fun _ => Moves.pure _) fun _ => (setting_own _).bind fun _ => ?_
  refine Moves.bind (Moves.attempt (link_own ?_)) fun _ => (setting_own _).bind fun _ => Moves.ofExcept _ _
  refine Moves.get.bind fun e => Moves.ite (fun _ => Moves.pure _) fun _ => ?_
  refine (quiet_link (steady_sweep.send_packet _)).bind fun _ => ?_
  refine Moves.bind (Moves.modify fun e => ?_) fun _ => fun _ => ⟨id, rfl⟩
  exact ⟨fun set => absurd set Bool.false_ne_true, rfl⟩

theorem receive : Moves PacesOwn (MqttClient.receive : ClientM H P E _) := by
  have answering : ∀ action, Moves SameLinkS (acknowledge action : SessionM H P E Unit) := fun action =>
    (steady_sweep.acknowledge action).mono fun _ _ quiet => ⟨quiet.connected.symm.trans, quiet.interval⟩
  have receiving : Moves SameLinkS (MqttProtocolEngine.receive_packet : SessionM H P E PacketAction) :=
    Moves.bind (receiving.zoom first fun _ _ => id) fun action => (answering action).bind fun _ => Moves.pure _
  refine Moves.bind (Moves.attempt ?_) fun result => ?_
  · exact receiving.zoom engineSession fun _ _ same => ⟨rfl, fun paced => paced.kept same⟩
  rcases result with err | action
  · exact (setting_own _).bind fun _ => Moves.fail _
  · exact steady_own (steady_sweep.handle_packet_action action)

theorem poll_connected : Moves PacesOwn (MqttClient.poll_connected : ClientM H P E _) := by
  refine (steady_own (ofEngine clock)).bind fun time => Moves.get.bind fun c => ?_
  refine Moves.ite (fun _ => (setting_own _).bind fun _ => Moves.fail _) fun _ => ?_
  refine (Moves.onlyIf fun _ => steady_own steady_sweep.ping).bind fun _ => ?_
  exact (steady_own (ofSession (steady_sweep.handle_retries time))).bind fun _ => receive

theorem poll : Moves PacesOwn (MqttClient.poll : ClientM H P E _) := by
  have down : Moves PacesOwn (do
      MqttClient.set_connection_state .Disconnected; return some .Disconnected : ClientM H P E (Option ClientEvent)) :=
    (setting_own _).bind fun _ => Moves.pure _
  refine Moves.get.bind fun c => Moves.ite (fun _ => Moves.ite (fun _ => ?_) fun _ => ?_) fun _ => poll_connected
  · refine (Moves.attempt reconnect).bind fun result => ?_
    cases result with
    | error err => exact down
    | ok _ => exact poll_connected
  · exact Moves.ite (fun _ => down) fun _ => Moves.pure _

section
variable [Codec V3.Packet MqttProtoError] [Codec V5.Packet ErrorV5] {v : Version}

theorem perform (op : Op v) : Moves PacesOwn op.perform := by
  by_cases calm : links op = false
  · exact steady_own (perform_steady calm)
  cases op with
  | connect => exact connect.bind fun _ => Moves.pure _
  | reconnect => exact reconnect.bind fun _ => Moves.pure _
  | disconnect => exact disconnect.bind fun _ => Moves.pure _
  | poll => exact poll.bind fun _ => Moves.pure _
  | _ => exact absurd rfl calm

/-- What an operation keeps of a client with the given configuration. -/
theorem perform_keeps (op : Op v) (config : ClientConfig) :
    Keeps (fun c : Client v => c.config = config ∧ Paced config.keep_alive c.protocol_engine) op.perform := by
  refine (perform op).keeps fun c c' paces known => ?_
  obtain ⟨rfl, paced⟩ := known
  exact ⟨paces.config, paces.paced paced⟩

/-- The configuration of a client stays, and a connected engine has its interval. -/
theorem connected_interval {c : Client v} (paced : Paced c.config.keep_alive c.protocol_engine) (calls : List (Call v)) :
    (c.run calls).config = c.config ∧ Paced c.config.keep_alive (c.run calls).protocol_engine := by
  refine Runs.invariant_all (I := fun c' : Client v => c'.config = c.config ∧ Paced c.config.keep_alive c'.protocol_engine)
    (fun c' call known => ?_) ⟨rfl, paced⟩ calls
  exact perform_keeps call.op c.config (c'.withWorld call.world) known

theorem paced_reachable {c : Client v} (reachable : c.Reachable) : Paced c.config.keep_alive c.protocol_engine := by
  obtain ⟨world, setup, config, calls, rfl⟩ := reachable
  obtain ⟨same, paced⟩ := connected_interval (c := MqttClient.new world (v.handler setup) config)
    (fun connected => by cases connected) calls
  rw [same]
  exact paced

end

end Masaka.Pacing
