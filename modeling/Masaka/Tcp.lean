import Masaka.Closed

/-!
A client on the TCP transport of tokio. The transport gives its stream away when it is
closed, and nothing brings another one: once a disconnect has closed it, every
connect fails, and nothing is handed over or received ever after.
-/
namespace Masaka.Tcp
open Effect Runs MqttProtocolHandler MqttProtocolEngine Sending Reconnect
open MqttClient (engine engineSession)

/-! ### The transport -/

/-- `std::io::ErrorKind`, with the kinds that this repository names. -/
inductive ErrorKind where
  | TimedOut
  | ConnectionRefused
  | ConnectionReset
  | ConnectionAborted
  | NotConnected
  | Other
  deriving DecidableEq

/-- `std::io::Error`, with the text it renders to. -/
structure IoError where
  kind : ErrorKind
  text : String
  deriving DecidableEq

/-- `From<std::io::Error> for TransportError`. -/
def from_io (err : IoError) : TransportError :=
  match err.kind with
  | .TimedOut => .Timeout
  | .ConnectionRefused => .ConnectionRefused
  | .ConnectionReset | .ConnectionAborted | .NotConnected => .ConnectionLost
  | .Other => .Io err.text

/-- What the stream of a connection does from here on: the n-th next call of each kind. -/
structure TcpStream (P E : Type) where
  poll_write : Nat → Option (Except IoError Nat)
  poll_flush : Nat → Option (Except IoError Unit)
  shutdown : Option (Except IoError Unit)
  poll_read : Nat → Read P E

structure TcpTransport (P E : Type) where
  stream : Option (TcpStream P E)

namespace TcpTransport
variable {P E : Type}

/-- The error of a transport without a stream. -/
def not_connected : IoError := ⟨.NotConnected, "Connection lost"⟩

def is_connected (t : TcpTransport P E) : Bool := t.stream.isSome

def poll_write (t : TcpTransport P E) (n : Nat) : Option (Except IoError Nat) :=
  match t.stream with
  | some stream => stream.poll_write n
  | none => some (.error not_connected)

def poll_flush (t : TcpTransport P E) (n : Nat) : Option (Except IoError Unit) :=
  match t.stream with
  | some stream => stream.poll_flush n
  | none => some (.error not_connected)

/-- Reading goes through the decoder, which passes an error on. -/
def poll_read (pass_on : IoError → E) (t : TcpTransport P E) (n : Nat) : Read P E :=
  match t.stream with
  | some stream => stream.poll_read n
  | none => .failed [] (pass_on not_connected)

/-- The stream is taken out before it is shut down. -/
def close (t : TcpTransport P E) : Option (Except TransportError Unit) × TcpTransport P E :=
  match t.stream with
  | some stream => (stream.shutdown.map (Except.mapError from_io), ⟨none⟩)
  | none => (some (.ok ()), t)

end TcpTransport

/-! ### Calls over it -/

section
variable {P E : Type}

/-- A call has closed the transport. -/
def Closed (log : List (Event P)) : Prop := ∃ answer, .close answer ∈ log

/-- Whether the log has a call that closed the transport. -/
def closed (log : List (Event P)) : Bool := log.any fun
  | .close _ => true
  | _ => false

theorem closed_iff {log : List (Event P)} : closed log = true ↔ Closed log := by
  simp only [closed, List.any_eq_true, Closed]
  constructor
  · rintro ⟨event, member, closes⟩
    cases event with
    | close answer => exact ⟨answer, member⟩
    | _ => cases closes
  · rintro ⟨answer, member⟩
    exact ⟨_, member, rfl⟩

/-- The transport that the calls in the log have left, with the stream that it had. -/
def transport (log : List (Event P)) (stream : TcpStream P E) : TcpTransport P E :=
  if closed log then (TcpTransport.close ⟨some stream⟩).2 else ⟨some stream⟩

/-- The surroundings of a client on the transport. Closing is the last that a call does. -/
def surroundings (pass_on : IoError → E) (t : TcpTransport P E) (others : World P E) : World P E := { others with
  is_connected := t.is_connected
  write := fun n => (t.poll_write n).map (Except.mapError from_io)
  flush := fun n => (t.poll_flush n).map (Except.mapError from_io)
  close := fun _ => t.close.1
  read := t.poll_read pass_on }

/-- Surroundings whose transport has no stream. -/
structure Dead (world : World P E) : Prop where
  link : world.is_connected = false
  write : ∀ n, world.write n = some (.error .ConnectionLost)
  flush : ∀ n, world.flush n = some (.error .ConnectionLost)

/-- A transport that was closed is dead. -/
theorem dead_closed (pass_on : IoError → E) {log : List (Event P)} (gone : Closed log) (stream : TcpStream P E)
    (others : World P E) : Dead (surroundings pass_on (transport log stream) others) := by
  have taken : transport log stream = ⟨none⟩ := by
    rw [transport, if_pos (closed_iff.mpr gone)]
    rfl
  rw [taken]
  exact ⟨rfl, fun _ => rfl, fun _ => rfl⟩

/-- An event that hands nothing over and brings nothing. -/
def Mute : Event P → Prop
  | .write _ (some (.ok _)) | .flush (some (.ok _)) | .received _ => False
  | _ => True

/-- Only mute events follow. -/
def Mutely (e e' : MqttProtocolEngine H P E) : Prop := ∃ events, e'.log = e.log ++ events ∧ ∀ event ∈ events, Mute event

end

/-! ### Without a stream -/

section
variable {H P E : Type}

theorem Mutely.refl {e e' : MqttProtocolEngine H P E} (same : e'.log = e.log) : Mutely e e' :=
  ⟨[], by rw [same, List.append_nil], by simp⟩
theorem Mutely.trans {e e' e'' : MqttProtocolEngine H P E} (first : Mutely e e') (second : Mutely e' e'') :
    Mutely e e'' := by
  obtain ⟨events, log, mute⟩ := first
  obtain ⟨more, log', mute'⟩ := second
  exact ⟨events ++ more, by rw [log', log, List.append_assoc], fun event member =>
    (List.mem_append.mp member).elim (mute event) (mute' event)⟩

theorem dead_writes {tape rest : Tape} {bytes : Bytes} {events : List (Event P)}
    (dead : ∀ n, tape n = some (.error .ConnectionLost)) (writes : Writes tape bytes events rest) : events = [] := by
  cases writes with
  | done => rfl
  | more _ answer _ => cases (dead 0).symm.trans answer

theorem dead_breaks {tape rest : Tape} {bytes : Bytes} {events : List (Event P)} {halt : Halt MqttError}
    (dead : ∀ n, tape n = some (.error .ConnectionLost)) (breaks : Breaks tape bytes events rest halt) :
    halt = .err (.Transport .ConnectionLost) ∧ ∀ event ∈ events, Mute event := by
  cases breaks with
  | refused _ answer =>
    rw [dead 0] at answer ⊢
    cases answer
    exact ⟨rfl, by simp [wrote, Mute, Except.map]⟩
  | more _ answer _ => cases (dead 0).symm.trans answer

/-- A transport without a stream takes no packet. -/
theorem dead_transmission {tape rest : Tape} {flush : Answer Unit} {frame : Frame P} {events : List (Event P)}
    {r : Except (Halt MqttError) Unit} (dead : ∀ n, tape n = some (.error .ConnectionLost))
    (unflushed : flush = some (.error .ConnectionLost)) (transmission : Transmission tape flush frame events rest r) :
    r = .error (.err (.Transport .ConnectionLost)) ∧ ∀ event ∈ events, Mute event := by
  cases transmission with
  | complete _ flushed => cases unflushed.symm.trans flushed
  | unflushed writes failed =>
    rw [unflushed] at failed ⊢
    cases failed
    rw [dead_writes dead writes]
    exact ⟨rfl, by simp [Mute]⟩
  | broken breaks =>
    obtain ⟨rfl, mute⟩ := dead_breaks dead breaks
    exact ⟨rfl, List.forall_mem_cons.mpr ⟨trivial, mute⟩⟩

variable [MqttProtocolHandler H P E]

theorem dead_sent {packet : P} {e e' : MqttProtocolEngine H P E} {r : Except (Halt MqttError) Unit}
    (dead : Dead e.world) (sent : Sent packet e r e') :
    (∃ err, r = .error (.err err)) ∧ e'.connected = e.connected ∧ Mutely e e' := by
  cases sent with
  | unencoded _ => exact ⟨⟨_, rfl⟩, rfl, .refl rfl⟩
  | encoded _ transmission _ =>
    obtain ⟨failed, mute⟩ := dead_transmission dead.write (dead.flush 0) transmission
    exact ⟨⟨_, failed⟩, rfl, _, rfl, mute⟩

/-- No CONNECT goes out. -/
theorem dead_handshake (config : ClientConfig) {e : MqttProtocolEngine H P E} (idle : e.write_queue = [])
    (dead : Dead e.world) (free : e.connected = false) : wp (handshake config) e fun r e' =>
      (∃ err, r = .error (.err err)) ∧ e'.connected = false ∧ Mutely e e' := by
  rw [handshake, connect_with_will, wp_bind, wp_get]
  simp only [free, Bool.false_eq_true, if_false]
  rw [wp_bind, wp_modify]
  refine wp_ofExcept_bind (fun packet _ => ?_) fun err _ => ⟨⟨_, rfl⟩, free, .refl rfl⟩
  refine wp_seq (wp_mono (send_packet_spec packet idle) fun _ _ => dead_sent dead) (fun _ e' sent => ?_) fun h e' sent => ?_
  · obtain ⟨⟨err, failed⟩, -⟩ := sent
    cases failed
  · obtain ⟨⟨err, failed⟩, link, mute⟩ := sent
    cases failed
    exact ⟨⟨err, rfl⟩, link.trans free, mute⟩

/-- The client is not connected, and its engine neither. -/
structure Gone (c : MqttClient H P E) : Prop where
  flag : c.protocol_engine.connected = false
  state : c.state.connection_state ≠ .Connected

/-- The client stays without a connection, and nothing is handed over or received. -/
structure Stays (c c' : MqttClient H P E) : Prop where
  gone : Gone c'
  mute : Mutely c.protocol_engine c'.protocol_engine

theorem dead_connect {c : MqttClient H P E} (idle : c.Idle) (dead : Dead c.protocol_engine.world) (gone : Gone c) :
    wp MqttClient.connect c fun r c' => (∃ err, r = .error (.err err)) ∧ Stays c c' := by
  refine connect_cases (fun _ err => ⟨⟨_, rfl⟩, gone, .refl rfl⟩) (fun _ flag => ?_) fun valid free => ?_
  · cases gone.flag.symm.trans flag
  have begun : Mutely c.protocol_engine (beginning c).protocol_engine := by
    refine ⟨_, beginning_log c, ?_⟩
    cases c.config.clean_session <;> simp [Mute]
  have shakes := dead_handshake c.config ((beginning_queue c).trans idle) (by rw [beginning_engine]; exact dead)
    ((beginning_connected c).trans free)
  refine connect_seq valid shakes (fun e err shook => ?_) (fun e action err shook => ?_) (fun e shook => ?_)
    fun e session_present shook => ?_
  · exact ⟨⟨err, rfl⟩, ⟨shook.2.1, fun same => by cases same⟩, begun.trans shook.2.2⟩
  · obtain ⟨⟨err, failed⟩, -⟩ := shook
    cases failed
  · obtain ⟨⟨err, failed⟩, -⟩ := shook
    cases failed
  · obtain ⟨⟨err, failed⟩, -⟩ := shook
    cases failed

theorem dead_reconnect {c : MqttClient H P E} (idle : c.Idle) (dead : Dead c.protocol_engine.world) (gone : Gone c) :
    wp MqttClient.reconnect c fun r c' => (∃ halt, r = .error halt) ∧ Stays c c' := by
  have waits : ∀ interval, Mutely c.protocol_engine (waited interval c).protocol_engine := fun interval =>
    ⟨[.delay interval], rfl, by simp [Mute]⟩
  refine reconnect_seq (fun _ err => ⟨⟨_, rfl⟩, gone, .refl rfl⟩)
    (fun interval => ⟨⟨_, rfl⟩, ⟨gone.flag, gone.state⟩, waits interval⟩) fun _ _ _ interval => ?_
  have later : Gone (waited interval c) := ⟨gone.flag, gone.state⟩
  refine wp_mono (dead_connect (c := waited interval c) idle ⟨dead.link, dead.write, dead.flush⟩ later) ?_
  rintro r c' ⟨⟨err, rfl⟩, stays⟩
  exact ⟨⟨_, rfl⟩, stays.gone, (waits interval).trans stays.mute⟩

omit [MqttProtocolHandler H P E] in
theorem dead_request {c : MqttClient H P E} (gone : Gone c) (request : ClientM H P E Unit) :
    exec (MqttClient.whenConnected request) c = (.error (.err .InvalidState), c) := by
  rw [MqttClient.whenConnected, exec_bind, exec_get]
  simp only [gone.state, ne_eq, not_false_eq_true, if_true]
  rfl

theorem dead_disconnect {c : MqttClient H P E} (idle : c.Idle) (gone : Gone c) :
    wp MqttClient.disconnect c fun r c' => r = .ok () ∧ Stays c c' := by
  by_cases running : c.state.connection_state = .Disconnected
  · rw [wp, Flags.disconnect_over running]
    exact ⟨rfl, gone, .refl rfl⟩
  have free := gone.flag
  refine Flags.disconnect_seq idle running (fun _ => ⟨rfl, ⟨free, fun same => by cases same⟩, .refl rfl⟩) (fun flag => ?_)
    (fun flag => ?_) fun flag => ?_ <;> cases free.symm.trans flag

theorem dead_poll {c : MqttClient H P E} (gone : Gone c) : wp MqttClient.poll c fun r c' =>
    (r = .ok none ∨ r = .ok (some .Disconnected)) ∧ Stays c c' := by
  have down : c.protocol_engine.is_connected = false := by rw [MqttProtocolEngine.is_connected, gone.flag, Bool.false_and]
  refine poll_seq (R := fun _ _ => False) (fun up => ?_) (fun _ state => absurd state gone.state)
    (fun _ state => absurd state gone.state) (fun _ impossible => impossible.elim) (fun _ impossible => impossible.elim)
    (fun _ _ _ => ⟨.inr rfl, ⟨gone.flag, fun same => by cases same⟩, .refl rfl⟩) fun _ _ => ⟨.inl rfl, gone, .refl rfl⟩
  cases down.symm.trans up

end

/-! ### The call that closes the transport -/

section
variable {H P E α : Type}

/-- The transport is not closed on the way. -/
def Open (e e' : MqttProtocolEngine H P E) : Prop := ∃ events, e'.log = e.log ++ events ∧ ¬ Closed events

theorem Open.refl (e : MqttProtocolEngine H P E) : Open e e := ⟨[], by simp, by simp [Closed]⟩
theorem Open.same {e e' : MqttProtocolEngine H P E} (same : e'.log = e.log) : Open e e' :=
  ⟨[], by rw [same, List.append_nil], by simp [Closed]⟩
theorem Open.event {e e' : MqttProtocolEngine H P E} (event : Event P) (log : e'.log = e.log ++ [event])
    (other : ∀ answer, event ≠ .close answer) : Open e e' :=
  ⟨[event], log, fun ⟨answer, member⟩ => other answer (List.mem_singleton.mp member).symm⟩

/-- The same of the two larger states. -/
abbrev OpenS (s s' : MqttProtocolEngine H P E × InMemorySession) : Prop := Open s.1 s'.1
abbrev OpenC (c c' : MqttClient H P E) : Prop := Open c.protocol_engine c'.protocol_engine

instance : Std.Refl (Open (H := H) (P := P) (E := E)) := ⟨.refl⟩
instance : IsTrans (MqttProtocolEngine H P E) Open := by
  refine ⟨fun _ _ _ first second => ?_⟩
  obtain ⟨events, log, unclosed⟩ := first
  obtain ⟨more, log', unclosed'⟩ := second
  refine ⟨events ++ more, by rw [log', log, List.append_assoc], fun ⟨answer, member⟩ => ?_⟩
  exact (List.mem_append.mp member).elim (fun first => unclosed ⟨answer, first⟩) fun second => unclosed' ⟨answer, second⟩
instance : Std.Refl (OpenS (H := H) (P := P) (E := E)) := ⟨fun s => .refl s.1⟩
instance : IsTrans (MqttProtocolEngine H P E × InMemorySession) OpenS := ⟨fun _ _ _ => trans_of Open⟩
instance : Std.Refl (OpenC (H := H) (P := P) (E := E)) := ⟨fun c => .refl c.protocol_engine⟩
instance : IsTrans (MqttClient H P E) OpenC := ⟨fun _ _ _ => trans_of Open⟩

theorem open_modify {f : MqttProtocolEngine H P E → MqttProtocolEngine H P E} (same : ∀ e, (f e).log = e.log) :
    Moves Open (modify f : EngineM H P E PUnit) := fun e => .same (same e)
theorem open_record {event : Event P} (other : ∀ answer, event ≠ .close answer) :
    Moves Open (modify (record event) : EngineM H P E PUnit) := fun _ => .event event rfl other

theorem open_sweep : Sweep (H := H) (E := E) (fun e => e.world.read) (fun e : MqttProtocolEngine H P E => e.log)
    (fun _ m => Moves Open m) (fun _ m => Moves OpenS m) fun _ m => Moves OpenC m where
  ofE := Moves.compositional _ _
  ofS := Moves.compositional _ _
  ofC := Moves.compositional _ _
  inEngine moves := moves.zoom first fun _ _ => id
  ofEngine moves := moves.zoom engine fun _ _ => id
  ofSession moves := moves.zoom engineSession fun _ _ => id
  write _ := fun _ => .event (.write _ _) rfl (by simp)
  flush := fun _ => .event (.flush _) rfl (by simp)
  clock := fun _ => .event (.clock _) rfl (by simp)
  sent_time _ := open_modify fun _ => rfl
  dequeued _ := open_modify fun _ => rfl
  queued frame := fun _ => .event (.queued frame) rfl (by simp)
  sent _ := open_record (by simp)
  handed_out _ := open_record (by simp)
  accepted _ := open_record (by simp)
  handler _ := open_modify fun _ => rfl
  onSession _ := fun s => .refl s.1
  counting := fun c => .refl c.protocol_engine
  adding _ := fun c => .refl c.protocol_engine
  removing _ := fun c => .refl c.protocol_engine
  popping := fun c => .refl c.protocol_engine

theorem open_state (new : ConnectionState) : Moves OpenC (MqttClient.set_connection_state new : ClientM H P E Unit) :=
  fun c => .refl c.protocol_engine

variable [MqttProtocolHandler H P E]

theorem open_receive : Moves Open (receive_packet_unlogged : EngineM H P E PacketAction) := by
  intro e
  refine ⟨arrival e, (receive_packet_unlogged_spec e).log, fun ⟨answer, member⟩ => ?_⟩
  unfold arrival at member
  split at member <;> simp at member

theorem open_connect : Moves OpenC (MqttClient.connect : ClientM H P E Unit) := by
  have shakes : ∀ config, Moves Open (handshake config : EngineM H P E PacketAction) := by
    intro config
    refine Moves.get.bind fun e => Moves.ite (fun _ => Moves.fail _) fun _ => ?_
    refine (open_modify (f := set_keep_alive_interval config.keep_alive) fun _ => rfl).bind fun _ => ?_
    refine Moves.bind_ofExcept fun packet _ => (open_sweep.send_packet packet).bind fun _ => open_receive.bind fun action => ?_
    cases action with
    | ConnectAck session_present return_code =>
      refine Moves.ite (fun _ => ?_) fun _ => Moves.fail _
      exact (open_modify (f := fun e => { e with connected := true }) fun _ => rfl).bind fun _ => Moves.pure _
    | _ => exact Moves.fail _
  intro c
  change wp MqttClient.connect c fun _ c' => OpenC c c'
  have begun : OpenC c (beginning c) := by
    refine ⟨_, beginning_log c, ?_⟩
    cases c.config.clean_session <;> simp [Closed]
  refine connect_cases (fun _ _ => .refl _) (fun _ _ => begun) fun valid _ => ?_
  refine connect_seq valid (R := fun _ e => Open c.protocol_engine e)
    (wp_mono ((shakes _).wp _) fun _ _ => trans_of Open begun) (fun _ _ shook => shook) (fun _ _ _ shook _ => shook)
    (fun _ shook => shook) fun e session_present shook => ?_
  have resent : Moves OpenC (onlyIf (session_present && !c.config.clean_session) MqttClient.resend_pending_messages :
      ClientM H P E Unit) := Moves.onlyIf fun _ => open_sweep.resend_pending_messages
  exact wp_mono (resent.wp _) fun _ _ => trans_of OpenC shook

theorem open_reconnect : Moves OpenC (MqttClient.reconnect : ClientM H P E Unit) := by
  intro c
  have waits : ∀ interval, OpenC c (waited interval c) := fun interval => .event (.delay interval) rfl (by simp)
  change wp MqttClient.reconnect c fun _ c' => OpenC c c'
  exact reconnect_seq (fun _ _ => .refl _) (fun interval => waits interval) fun _ _ _ interval =>
    wp_mono (open_connect.wp _) fun _ _ => trans_of OpenC (waits interval)

theorem open_poll : Moves OpenC (MqttClient.poll : ClientM H P E (Option ClientEvent)) := by
  have receives : Moves OpenC (MqttClient.receive : ClientM H P E (Option ClientEvent)) := by
    have arrives : Moves OpenS (receive_packet : SessionM H P E PacketAction) :=
      (open_receive.zoom first fun _ _ => id).bind fun action => (open_sweep.acknowledge action).bind fun _ => Moves.pure _
    refine (Moves.attempt (arrives.zoom engineSession fun _ _ => id)).bind fun result => ?_
    cases result with
    | ok action => exact open_sweep.handle_packet_action action
    | error err => exact (open_state _).bind fun _ => Moves.fail _
  have polls : Moves OpenC (MqttClient.poll_connected : ClientM H P E (Option ClientEvent)) := by
    refine (open_sweep.ofEngine open_sweep.clock).bind fun time => Moves.get.bind fun c => ?_
    refine Moves.ite (fun _ => (open_state _).bind fun _ => Moves.fail _) fun _ => ?_
    refine (Moves.onlyIf fun _ => open_sweep.ping).bind fun _ => ?_
    exact (open_sweep.ofSession (open_sweep.handle_retries time)).bind fun _ => receives
  intro c
  change wp MqttClient.poll c fun _ c' => OpenC c c'
  exact poll_seq (R := fun _ c' => OpenC c c') (fun _ => polls c) (fun _ _ _ => open_reconnect c) (fun _ _ _ _ moved => moved)
    (fun _ moved => moved) (fun _ moved => wp_mono (polls.wp _) fun _ _ => trans_of OpenC moved) (fun _ _ _ => .refl _)
    fun _ _ => .refl _

/-- A disconnect that closes the transport leaves the client without a connection. -/
theorem disconnect_closes {c : MqttClient H P E} (idle : c.Idle) :
    wp MqttClient.disconnect c fun _ c' => OpenC c c' ∨ Gone c' := by
  by_cases running : c.state.connection_state = .Disconnected
  · rw [wp, Flags.disconnect_over running]
    exact .inl (.refl _)
  have sends : ∀ {packet : P} {e : MqttProtocolEngine H P E} {r : Except (Halt MqttError) Unit},
      Sent packet c.protocol_engine r e → Open c.protocol_engine e := by
    intro packet e r sent
    cases sent with
    | unencoded _ => exact .refl _
    | encoded _ transmission _ =>
      refine ⟨_, rfl, fun closed => ?_⟩
      obtain ⟨answer, member⟩ := closed
      exact transmission.all (Q := fun event => event ≠ .close answer) (by simp) (by simp) (by simp) (by simp) (by simp)
        _ member rfl
  exact Flags.disconnect_seq idle running (fun _ => .inl (.refl _)) (fun _ _ _ sent => .inl (sends sent))
    (fun _ _ sent => .inl (sends sent)) fun _ _ _ =>
      ⟨.inr ⟨rfl, fun same => by cases same⟩, fun _ _ => .inr ⟨rfl, fun same => by cases same⟩⟩

end

/-! ### Runs over the transport -/

/-- A call of a client on the transport, with what the stream, if there is one, and the clock do during it. -/
structure Dial (v : Version) where
  op : Op v
  stream : TcpStream v.Packet v.Error
  others : World v.Packet v.Error

section
variable [Codec V3.Packet MqttProtoError] [Codec V5.Packet ErrorV5] {v : Version} (pass_on : IoError → v.Error)

/-- The call, over the transport that the calls before it have left. -/
def Dial.call (c : Client v) (dial : Dial v) : Call v :=
  ⟨dial.op, surroundings pass_on (transport c.protocol_engine.log dial.stream) dial.others⟩

def after (c : Client v) (dial : Dial v) : Client v := c.after (dial.call pass_on c)

/-- The operations that need no connection. -/
def Offline : {v : Version} → Op v → Prop
  | _, .disconnect | _, .poll | _, .next_message | _, .set_v5_config _ => True
  | _, _ => False

/-- The call hands nothing over and receives nothing. It succeeds only if it needs no connection,
    and a poll reports no more than that there is none. -/
structure Lifeless (c : Client v) (call : Call v) : Prop where
  mute : ∀ event ∈ c.events call, Mute event
  fails : (c.call call).1.isOk = true → Offline call.op
  reports : ∀ event, (c.call call).1 = .ok (.event event) → event = none ∨ event = some .Disconnected

/-- A call over a transport without a stream. -/
theorem lifeless_call {c : Client v} (idle : c.Idle) {call : Call v} (dead : Dead call.world) (gone : Gone c) :
    Lifeless c call ∧ Gone (c.after call) := by
  obtain ⟨op, world⟩ := call
  have start : Gone (c.withWorld world) := ⟨gone.flag, gone.state⟩
  have summary : wp op.perform (c.withWorld world) fun r c' => (r.isOk = true → Offline op) ∧
      (∀ event, r = .ok (.event event) → event = none ∨ event = some .Disconnected) ∧ Stays (c.withWorld world) c' := by
    have refused : ∀ request : ClientM v.Handler v.Packet v.Error Unit,
        wp (MqttClient.whenConnected request >>= fun _ => pure Reply.unit) (c.withWorld world) fun r c' =>
          (r.isOk = true → Offline op) ∧ (∀ event, r = .ok (.event event) → event = none ∨ event = some .Disconnected) ∧
            Stays (c.withWorld world) c' := fun request => by
      refine wp_result ?_
      rw [wp, dead_request start]
      exact ⟨(fun same => by cases same), (fun _ same => by cases same), start, .refl rfl⟩
    have failing : ∀ {r : Except (Halt MqttError) Unit} {c' : Client v}, (∃ halt, r = .error halt) →
        Stays (c.withWorld world) c' → ((r.map fun _ => Reply.unit).isOk = true → Offline op) ∧
          (∀ event, (r.map fun _ => Reply.unit) = .ok (.event event) → event = none ∨ event = some .Disconnected) ∧
            Stays (c.withWorld world) c' := by
      rintro r c' ⟨halt, rfl⟩ stays
      exact ⟨(fun same => by cases same), (fun _ same => by cases same), stays⟩
    cases op with
    | connect =>
      refine wp_result (wp_mono (dead_connect (c := c.withWorld world) idle dead start) fun r c' ended => ?_)
      obtain ⟨⟨err, failed⟩, stays⟩ := ended
      exact failing ⟨_, failed⟩ stays
    | reconnect =>
      refine wp_result (wp_mono (dead_reconnect (c := c.withWorld world) idle dead start) fun r c' ended => ?_)
      exact failing ended.1 ended.2
    | disconnect =>
      refine wp_result (wp_mono (dead_disconnect (c := c.withWorld world) idle start) fun r c' ended => ?_)
      obtain ⟨rfl, stays⟩ := ended
      exact ⟨fun _ => trivial, (fun _ same => by cases same), stays⟩
    | poll =>
      refine wp_result (wp_mono (dead_poll start) fun r c' ended => ?_)
      obtain ⟨rfl | rfl, stays⟩ := ended
      · exact ⟨fun _ => trivial, fun event same => .inl (by cases same; rfl), stays⟩
      · exact ⟨fun _ => trivial, fun event same => .inr (by cases same; rfl), stays⟩
    | next_message => exact ⟨fun _ => trivial, (fun _ same => by cases same), ⟨start.flag, start.state⟩, .refl rfl⟩
    | set_v5_config config => exact ⟨fun _ => trivial, (fun _ same => by cases same), ⟨start.flag, start.state⟩, .refl rfl⟩
    | _ => exact refused _
  obtain ⟨fails, reports, stays⟩ := summary
  obtain ⟨events, log, mute⟩ := stays.mute
  refine ⟨⟨fun event member => mute event ?_, fails, reports⟩, stays.gone⟩
  have grown : (c.after ⟨op, world⟩).protocol_engine.log = c.protocol_engine.log ++ events := log
  rwa [Client.events, grown, List.drop_left] at member

/-- A call that closes the transport leaves the client without a connection. -/
theorem closing_call {c : Client v} (idle : c.Idle) (call : Call v) (closes : Closed (c.events call)) :
    Gone (c.after call) := by
  obtain ⟨op, world⟩ := call
  have unclosed : ∀ {c' : Client v}, OpenC (c.withWorld world) c' → c' = c.after ⟨op, world⟩ → False := by
    rintro c' ⟨events, log, none⟩ rfl
    refine none ?_
    have grown : (c.after ⟨op, world⟩).protocol_engine.log = c.protocol_engine.log ++ events := log
    rwa [Client.events, grown, List.drop_left] at closes
  have moved : ∀ {α : Type} {m : ClientM v.Handler v.Packet v.Error α} {f : α → Reply}, Moves OpenC m →
      op.perform = (m >>= fun a => pure (f a)) → False := by
    intro α m f moves same
    refine @unclosed (exec op.perform (c.withWorld world)).2 ?_ rfl
    rw [same]
    exact moves.bind (fun a => Moves.pure (f a)) _
  cases op with
  | connect => exact (moved (f := fun _ => .unit) open_connect rfl).elim
  | reconnect => exact (moved (f := fun _ => .unit) open_reconnect rfl).elim
  | poll => exact (moved (f := .event) open_poll rfl).elim
  | disconnect =>
    refine wp_result (Q := fun _ c' => c' = c.after ⟨.disconnect, world⟩ → Gone c')
      (wp_mono (disconnect_closes (c := c.withWorld world) idle) fun r c' ended same => ?_) rfl
    exact ended.elim (fun opened => (unclosed opened same).elim) id
  | _ => exact (unclosed (open_sweep.calm _ (by simp) (c.withWorld world)) rfl).elim

/-- Once the transport of a client is closed, the client is never connected again, in whatever run: every
    later call leaves it without a connection, hands nothing over and receives nothing. -/
theorem closed_for_good (world : World v.Packet v.Error) (setup : v.Setup) (config : ClientConfig) (dials : List (Dial v))
    (gone : Closed (run (after pass_on) (MqttClient.new world (v.handler setup) config) dials).protocol_engine.log) :
    let c := run (after pass_on) (MqttClient.new world (v.handler setup) config) dials
    Gone c ∧ ∀ dial : Dial v, Lifeless c (dial.call pass_on c) := by
  intro c
  have invariant : c.Reachable ∧ (Closed c.protocol_engine.log → Gone c) := by
    refine invariant_all (I := fun c : Client v => c.Reachable ∧ (Closed c.protocol_engine.log → Gone c))
      (fun c dial holds => ?_) ⟨⟨world, setup, config, [], rfl⟩, fun ⟨_, member⟩ => by cases member⟩ dials
    obtain ⟨reachable, lost⟩ := holds
    refine ⟨reachable.after _, fun closed => ?_⟩
    by_cases before : Closed c.protocol_engine.log
    · exact (lifeless_call reachable.idle (dead_closed pass_on before _ _) (lost before)).2
    · obtain ⟨answer, member⟩ := closed
      rw [show (after pass_on c dial).protocol_engine.log = _ from Client.call_log reachable.idle _] at member
      rcases List.mem_append.mp member with early | late
      · exact absurd ⟨answer, early⟩ before
      · exact closing_call reachable.idle _ ⟨answer, late⟩
  refine ⟨invariant.2 gone, fun dial => ?_⟩
  exact (lifeless_call invariant.1.idle (dead_closed pass_on gone _ _) (invariant.2 gone)).1

end

/-! ### A client that was disconnected -/

section
local instance : Codec V3.Packet MqttProtoError := Wire.v3Codec
local instance : Codec V5.Packet ErrorV5 := Wire.v5Codec

/-- A stream that takes every byte and delivers a CONNACK. -/
def accepting : TcpStream V3.Packet MqttProtoError where
  poll_write _ := some (.ok 65536)
  poll_flush _ := some (.ok ())
  shutdown := some (.ok ())
  poll_read := (World.obliging true [.Connack ⟨false, 0⟩]).read

def dialing : Dial .v3 := ⟨.connect, accepting, .obliging true []⟩
def hanging_up : Dial .v3 := ⟨.disconnect, accepting, .obliging true []⟩
def told (err : IoError) : MqttProtoError := .Other err.text
def hung_up : Client .v3 :=
  run (after (v := .v3) told) (MqttClient.new (.obliging true []) (Version.handler .v3 ()) {}) [dialing, hanging_up]

/-- The stream would take a CONNECT again, but the transport has given it away. -/
theorem closed_for_good_hung_up : Lifeless hung_up (dialing.call told hung_up) :=
  (closed_for_good (v := .v3) told (.obliging true []) () {} [dialing, hanging_up]
    (closed_iff.mp (by decide +kernel))).2 dialing

end

end Masaka.Tcp
